import FalconSmartAccount.Falcon.Keystream

/-!
`hashToPoint` samples by rejection: it takes the words of the stream in order and keeps those below the
largest multiple of `q`.
-/

namespace ZKNOX_HashToPoint

open ZKNOX_keccak_prng

section

variable (keccak256 : Bytes → Word)

/-- The `j`-th 16 bit word of the stream, big endian. -/
def streamWord (st : Word) (j : Nat) : Nat :=
  256 * (streamByte keccak256 st (2 * j)).toNat + (streamByte keccak256 st (2 * j + 1)).toNat

theorem word16_slice (st : Word) (j : Nat)
    : word16 (slice keccak256 st (2 * j) 2) = streamWord keccak256 st j :=
  rfl

/-- What is kept of the first `words` words. -/
def accepted (st : Word) (kq words : Nat) : List Nat :=
  ((List.range words).map (streamWord keccak256 st)).filter (· < kq)

theorem accepted_succ (st : Word) (kq words : Nat)
    : accepted keccak256 st kq (words + 1)
        = accepted keccak256 st kq words
          ++ if streamWord keccak256 st words < kq then [streamWord keccak256 st words] else [] := by
  unfold accepted
  rw [List.range_succ, List.map_append, List.filter_append]
  congr 1
  simp only [List.map_cons, List.map_nil, List.filter_cons, List.filter_nil, decide_eq_true_eq]

theorem length_accepted_le (st : Word) (kq words : Nat)
    : (accepted keccak256 st kq words).length ≤ words := by
  unfold accepted
  apply (List.length_filter_le _ _).trans
  simp

theorem length_accepted_lt {st : Word} {kq words j : Nat} (hj : j < words)
    (hrejected : kq ≤ streamWord keccak256 st j)
    : (accepted keccak256 st kq words).length < words := by
  have hmem : streamWord keccak256 st j ∈ (List.range words).map (streamWord keccak256 st) :=
    List.mem_map_of_mem (List.mem_range.mpr hj)
  unfold accepted
  apply lt_of_lt_of_eq (List.length_filter_lt_length_iff_exists.mpr ⟨_, hmem, _⟩)
  . simp
  . simpa using hrejected

variable {keccak256}

/-- A request for a word returns the next one, if it returns. -/
theorem extract_word {st : Word} {p p' : ZKNOX_keccak_prng} {words : Nat} {t_bytes : Bytes}
    (h : At keccak256 st p (2 * words)) (hle : 2 * words ≤ 32 * (2 ^ 64 - 1))
    (hextract : p.extract keccak256 2 = .ok (p', t_bytes))
    : word16 t_bytes = streamWord keccak256 st words ∧ At keccak256 st p' (2 * (words + 1))
        ∧ 2 * (words + 1) ≤ 32 * (2 ^ 64 - 1) := by
  rcases Nat.eq_or_lt_of_le hle with heq | hlt
  . rw [heq] at h
    rw [h.extract_exhausted Nat.two_pos (by decide)] at hextract
    cases hextract
  . obtain ⟨p1, hextract1, hat⟩ := h.extract (show 2 ≤ 2 ^ 61 by decide) (by omega)
    rw [hextract] at hextract1
    cases hextract1
    exact ⟨word16_slice keccak256 st words, hat, by omega⟩

/-- The entries from `i` on are what the words from `words` on leave in them. -/
theorem sample_accepted {q kq n gas : Nat} {st : Word} {p : ZKNOX_keccak_prng} {words i : Nat}
    {c c' : List Nat} (hq : 0 < q) (hat : At keccak256 st p (2 * words))
    (hle : 2 * words ≤ 32 * (2 ^ 64 - 1)) (hn : n ≤ c.length) (hi : i ≤ n)
    (hlength : (accepted keccak256 st kq words).length = i)
    (hc : c.take i = (accepted keccak256 st kq words).map (· % q))
    (h : sample keccak256 q kq n gas p i c = .ok c')
    : ∃ m, (accepted keccak256 st kq m).length = n
        ∧ c' = (accepted keccak256 st kq m).map (· % q) ++ c.drop n := by
  induction gas generalizing p i c words with
  | zero => cases h
  | succ gas ih =>
    unfold sample at h
    split at h
    . next hlt =>
      obtain ⟨⟨p', t_bytes⟩, hextract, h⟩ := Checked.bind_eq_ok.mp h
      obtain ⟨hword, hat', hle'⟩ := extract_word hat hle hextract
      dsimp only at h
      rw [hword] at h
      have hsucc := accepted_succ keccak256 st kq words
      split at h
      . next hkq =>
        rw [if_pos hkq] at hsucc
        rw [Solidity.mod_ok hq, Checked.ok_bind, Solidity.set_ok (by omega), Checked.ok_bind] at h
        have htake : (c.set i (streamWord keccak256 st words % q)).take (i + 1)
            = (accepted keccak256 st kq (words + 1)).map (· % q) := by
          rw [List.take_add_one, List.take_set_of_le (Nat.le_refl i),
            List.getElem?_set_self (by omega)]
          rw [hc, hsucc]
          simp
        obtain ⟨m, hm, hc'⟩ := ih hat' hle' (by simpa using hn) hlt (by simp [hsucc, hlength]) htake h
        refine ⟨m, hm, ?_⟩
        rw [hc']
        rw [List.drop_set_of_lt hlt]
      . next hkq =>
        rw [if_neg hkq, List.append_nil] at hsucc
        exact ih hat' hle' hn hi (by rw [hsucc, hlength]) (by rw [hsucc, hc]) h
    . next hge =>
      cases h
      have hin : i = n := by omega
      refine ⟨words, by rw [hlength, hin], ?_⟩
      rw [← hc, hin, List.take_append_drop]

/-- As long as there are words left, sampling fails for lack of gas only. -/
theorem sample_error {q kq n gas : Nat} {st : Word} {p : ZKNOX_keccak_prng} {words i : Nat}
    {c : List Nat} {e : Revert} (hq : 0 < q) (hat : At keccak256 st p (2 * words))
    (hgas : 2 * (words + gas) ≤ 32 * (2 ^ 64 - 1)) (hn : n ≤ c.length)
    (h : sample keccak256 q kq n gas p i c = .error e)
    : e = .outOfGas := by
  induction gas generalizing p i c words with
  | zero =>
    cases h
    rfl
  | succ gas ih =>
    unfold sample at h
    split at h
    . next hlt =>
      obtain ⟨p', hextract, hat'⟩ := hat.extract (show 2 ≤ 2 ^ 61 by decide) (by omega)
      have hnext : At keccak256 st p' (2 * (words + 1)) := hat'
      rw [hextract] at h
      rw [Checked.ok_bind] at h
      dsimp only at h
      split at h
      . rw [Solidity.mod_ok hq] at h
        rw [Checked.ok_bind] at h
        rw [Solidity.set_ok (by omega)] at h
        rw [Checked.ok_bind] at h
        exact ih hnext (by omega) (by simpa using hn) h
      . exact ih hnext (by omega) hn h
    . cases h

theorem hashToPoint_eq {gas : Nat} {salt msgHash : Bytes} {q n : Nat} (hq : 0 < q)
    : hashToPoint keccak256 gas salt msgHash q n
        = sample keccak256 q (65536 / q * q) n gas (start keccak256 (salt ++ msgHash)) 0
            (List.replicate 512 0) := by
  have hkq : 65536 / q * q < Yul.wordSize := by
    have := Nat.div_mul_le_self 65536 q
    unfold Yul.wordSize
    omega
  have hshift : 1 <<< 16 = 65536 := rfl
  unfold hashToPoint
  rw [hshift, Solidity.div_ok hq, Checked.ok_bind]
  unfold ZKNOX_keccak_prng.inject ZKNOX_keccak_prng.flip
  rw [Solidity.mul_ok hkq]
  rfl

theorem hashToPoint_error {gas : Nat} {salt msgHash : Bytes} {q n : Nat} {e : Revert} (hq : 0 < q)
    (hn : n ≤ 512) (hgas : gas < 2 ^ 64)
    (h : hashToPoint keccak256 gas salt msgHash q n = .error e)
    : e = .outOfGas := by
  have hstart : At keccak256 _ _ (2 * 0) := at_start keccak256 (salt ++ msgHash)
  have hlen : n ≤ (List.replicate 512 0 : List Nat).length := by
    rwa [List.length_replicate]
  rw [hashToPoint_eq hq] at h
  exact sample_error hq hstart (by omega) hlen h

theorem hashToPoint_exact {gas : Nat} {salt msgHash : Bytes} {q n : Nat} {c : List Nat} (hq : 0 < q)
    (hn : n ≤ 512) (h : hashToPoint keccak256 gas salt msgHash q n = .ok c)
    : (∃ m, let words := accepted keccak256 (keccak256 (salt ++ msgHash)) (65536 / q * q) m
          words.length = n ∧ c = words.map (· % q) ++ List.replicate (512 - n) 0)
        ∧ c.length = 512 ∧ ∀ i < n, c.getD i 0 < q := by
  have hlength := hashToPoint_length keccak256 h
  have hsample := h
  rw [hashToPoint_eq hq] at hsample
  have hstart := at_start keccak256 (salt ++ msgHash)
  obtain ⟨m, hm, hc⟩ := @sample_accepted keccak256 q _ n gas _ _ 0 0 _ _ hq hstart
    (Nat.zero_le _) (by rwa [List.length_replicate]) (Nat.zero_le n) rfl rfl hsample
  refine ⟨⟨m, hm, ?_⟩, hlength, ?_⟩
  . rw [hc, List.drop_replicate]
  . intro i hi
    rw [hc]
    rw [List.getD_append _ _ _ _ (by simpa [hm] using hi)]
    rw [List.getD_eq_getElem _ _ (by simpa [hm] using hi)]
    rw [List.getElem_map]
    exact Nat.mod_lt _ hq

end

def zeroSalt : Bytes := List.replicate 40 0

theorem hashToPoint_zeroSalt
    : ∃ c, hashToPoint keccak256 600 zeroSalt [] 12289 512 = .ok c :=
  hashToPoint_of_enoughRounds keccak256 (by decide) (by decide) (by decide +kernel)

/-- The word at position 25 is rejected, so more than 512 words are taken. -/
theorem hashToPoint_exact_zeroSalt
    : ∃ c m, hashToPoint keccak256 600 zeroSalt [] 12289 512 = .ok c ∧ 512 < m
        ∧ streamWord keccak256 (keccak256 zeroSalt) 25 = 64034
        ∧ c = (accepted keccak256 (keccak256 zeroSalt) 61445 m).map (· % 12289) := by
  obtain ⟨c, hc⟩ := hashToPoint_zeroSalt
  have hrejected : streamWord keccak256 (keccak256 zeroSalt) 25 = 64034 := by
    decide +kernel
  obtain ⟨⟨m, hm, hwords⟩, _⟩ := hashToPoint_exact (by decide) (by decide) hc
  rw [Nat.sub_self, List.replicate_zero, List.append_nil] at hwords
  refine ⟨c, m, hc, ?_, hrejected, hwords⟩
  have hm' : (accepted keccak256 (keccak256 zeroSalt) 61445 m).length = 512 := hm
  have hle := length_accepted_le keccak256 (keccak256 zeroSalt) 61445 m
  have hlt := length_accepted_lt keccak256 (show 25 < m by omega)
    (show 61445 ≤ streamWord keccak256 (keccak256 zeroSalt) 25 by omega)
  omega

end ZKNOX_HashToPoint
