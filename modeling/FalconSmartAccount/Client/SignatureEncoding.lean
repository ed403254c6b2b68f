import FalconSmartAccount.Account.FalconSimpleAccount
import FalconSmartAccount.Client.Ethers
import FalconSmartAccount.Client.SignatureCodec

/-!
The way of a signature from the signing library through the client to the account.
-/

namespace AnvilFalconTx

/-- What the client writes into `userOp.signature`. -/
def encodedSignature [Ethers] (fuel : Nat) (signMsg : Bytes) : Option Bytes := do
  let { s2, salt } ← decompressS2 fuel signMsg
  Ethers.encode [.uint256s 512 (s2.map .bigint), .bytes salt]

/-- An encoding of numbers of 256 bits. -/
theorem encode_signature [Ethers] [LawfulEthers] {xs : List Int} (hlength : xs.length = 512)
    (hrange : ∀ x ∈ xs, 0 ≤ x ∧ x < 2 ^ 256) (salt : Bytes)
    : Ethers.encode [.uint256s 512 (xs.map .bigint), .bytes salt]
        = some (Abi.words (xs.map Int.toNat) ++ Abi.wordBytes (32 * 513) ++ Abi.bytesTail salt) := by
  have hmapM : (xs.map BigNumberish.bigint).mapM (BigNumberish.word Ethers.bigNumberFrom)
      = some (xs.map fun x => Abi.wordBytes x.toNat) := by
    clear hlength
    induction xs with
    | nil => rfl
    | cons x xs ih =>
      rw [List.forall_mem_cons] at hrange
      have hx : ((x.toNat : Nat) : Int) = x := Int.toNat_of_nonneg hrange.1.1
      have hword : (BigNumberish.bigint x).word Ethers.bigNumberFrom = some (Abi.wordBytes x.toNat) := by
        rw [← hx]
        rw [Ethers.bigint_word (by unfold Yul.wordSize; omega)]
        rw [hx]
      rw [List.map_cons, List.mapM_cons, hword, ih hrange.2]
      rfl
  have hwords : (xs.map fun x => Abi.wordBytes x.toNat).flatten = Abi.words (xs.map Int.toNat) := by
    unfold Abi.words
    rw [List.flatMap_map]
    rfl
  have hhead : (Abi.words (xs.map Int.toNat)).length = 32 * 512 := by
    rw [Abi.words_length]
    rw [List.length_map]
    rw [hlength]
  rw [LawfulEthers.encode]
  unfold Abi.encode
  simp only [List.mapM_cons, List.mapM_nil, AbiValue.part, List.length_map, hlength, if_pos, hmapM, hwords,
    Option.map_some, Option.bind_eq_bind, Option.bind_some, Option.pure_def, Abi.assemble, Abi.heads,
    Abi.tails, List.map_cons, List.map_nil, List.sum_cons, List.sum_nil, Abi.Part.headLength, hhead,
    List.append_nil]
  rfl

/-- The account reads what the client has written. -/
theorem decodeSignature_encode {xs : List Int} {salt : Bytes} (hlength : xs.length = 512)
    (hrange : ∀ x ∈ xs, 0 ≤ x ∧ x < 2 ^ 256) (hsalt : salt.length < 2 ^ 64)
    : ∃ s2 : Vector Nat 512,
        FalconSimpleAccount.decodeSignature
            (Abi.words (xs.map Int.toNat) ++ Abi.wordBytes (32 * 513) ++ Abi.bytesTail salt)
          = some ⟨salt, s2⟩
          ∧ s2.toList.map Int.ofNat = xs := by
  have hwords : (Abi.words (xs.map Int.toNat)).length = 32 * 512 := by
    rw [Abi.words_length]
    rw [List.length_map]
    rw [hlength]
  have hoffset : Abi.wordAt (Abi.words (xs.map Int.toNat) ++ Abi.wordBytes (32 * 513)
      ++ Abi.bytesTail salt) (32 * 512) = 32 * 513 := by
    rw [Abi.wordAt_append_left (by rw [List.length_append]; rw [hwords]; simp)]
    rw [← hwords]
    rw [← Nat.add_zero (Abi.words (xs.map Int.toNat)).length]
    rw [Abi.wordAt_append_right]
    apply Abi.wordAt_wordBytes
    decide
  have hhead : (Abi.words (xs.map Int.toNat) ++ Abi.wordBytes (32 * 513)).length = 32 * 513 := by
    rw [List.length_append]
    rw [hwords]
    simp
  obtain ⟨hsize, _⟩ := Abi.read_bytesTail (Abi.words (xs.map Int.toNat) ++ Abi.wordBytes (32 * 513))
    salt [] (by unfold Yul.wordSize; omega)
  rw [List.append_nil] at hsize
  rw [hhead] at hsize
  have htotal : 32 * 513 + 32 + salt.length ≤ (Abi.words (xs.map Int.toNat)
      ++ Abi.wordBytes (32 * 513) ++ Abi.bytesTail salt).length := by
    rw [List.length_append]
    rw [hhead]
    simp [Abi.bytesTail]
    omega
  have hword : ∀ i, (hi : i < xs.length) → Abi.wordAt (Abi.words (xs.map Int.toNat)
      ++ Abi.wordBytes (32 * 513) ++ Abi.bytesTail salt) (32 * i) = xs[i].toNat := by
    intro i hi
    have hx := hrange xs[i] (List.getElem_mem hi)
    rw [List.append_assoc]
    rw [Abi.wordAt_append_left (by rw [hwords]; omega)]
    rw [Abi.wordAt_words (by simpa using hi)]
    . rw [List.getElem_map]
    . rw [List.getElem_map]
      unfold Yul.wordSize
      omega
  refine ⟨Vector.ofFn fun i => Abi.wordAt (Abi.words (xs.map Int.toNat) ++ Abi.wordBytes (32 * 513)
    ++ Abi.bytesTail salt) (32 * i), ?_, ?_⟩
  . unfold FalconSimpleAccount.decodeSignature
    simp only [hoffset, hsize]
    rw [if_pos ⟨by omega, by decide, hsalt, htotal⟩]
    congr 2
    have hassoc : Abi.words (xs.map Int.toNat) ++ Abi.wordBytes (32 * 513) ++ Abi.bytesTail salt
        = (Abi.words (xs.map Int.toNat) ++ Abi.wordBytes (32 * 513) ++ Abi.wordBytes salt.length)
          ++ (salt ++ List.replicate ((32 - salt.length % 32) % 32) 0) := by
      simp only [Abi.bytesTail, List.append_assoc]
    rw [hassoc]
    rw [List.drop_left' (by rw [List.length_append]; rw [hhead]; simp)]
    rw [List.take_left' rfl]
  . apply List.ext_getElem
    . simp [hlength]
    . intro i hi hi'
      have hx := hrange xs[i] (List.getElem_mem hi')
      simp only [Vector.toList_ofFn, List.getElem_map, List.getElem_ofFn]
      rw [hword i hi']
      apply Int.toNat_of_nonneg hx.1

end AnvilFalconTx

namespace DecodeFinal

open FalconCode

theorem length_extractNonce {signMsg : Bytes} (h : 42 ≤ signMsg.length)
    : (extractNonce signMsg).length = 40 := by
  unfold extractNonce JavaScript.subarray
  rw [List.length_drop]
  rw [List.length_take]
  omega

/-- Nothing is lost of what `toModQ` is applied to. -/
theorem toModQ_inj {xs ys : List Int} (hxs : ∀ x ∈ xs, Compressible x) (hys : ∀ y ∈ ys, Compressible y)
    (h : toModQ xs 12289 = toModQ ys 12289)
    : xs = ys := by
  unfold toModQ at h
  induction xs generalizing ys with
  | nil =>
    cases ys with
    | nil => rfl
    | cons y ys => cases h
  | cons x xs ih =>
    cases ys with
    | nil => cases h
    | cons y ys =>
      rw [List.forall_mem_cons] at hxs hys
      rw [List.map_cons] at h
      rw [List.map_cons] at h
      injection h with hhead htail
      have hx := hxs.1
      have hy := hys.1
      unfold Compressible at hx hy
      have heq : x = y := by
        split at hhead <;> split at hhead <;> omega
      rw [heq]
      rw [ih hxs.2 hys.2 htail]

theorem decodeFalconSignature_iff {signMsg : Bytes} {decoded : Decoded}
    : decodeFalconSignature signMsg 512 = .ok decoded
        ↔ decoded = ⟨toModQ decoded.signedS2 12289, extractNonce signMsg, decoded.signedS2⟩
          ∧ decodeFalconSig (signMsg.drop 43) 512 = .ok decoded.signedS2 := by
  constructor
  . intro h
    obtain ⟨signedS2, hsig, hdecoded⟩ := bind_eq_ok.mp h
    cases hdecoded
    exact ⟨rfl, hsig⟩
  . rintro ⟨hdecoded, hsig⟩
    apply bind_eq_ok.mpr
    refine ⟨decoded.signedS2, hsig, ?_⟩
    rw [hdecoded]
    rfl

theorem decodeFalconSignature_compressed {header salt tail : Bytes} {x : UInt8} {xs : List Int}
    (hheader : header.length = 2) (hsalt : salt.length = 40) (hlength : xs.length = 512)
    (hxs : ∀ x ∈ xs, Compressible x)
    : decodeFalconSignature (header ++ salt ++ x :: (Bits.pack (xs.flatMap codeword) ++ tail)) 512
        = .ok ⟨toModQ xs 12289, salt, xs⟩ := by
  have hstart : (header ++ salt).length = 42 := by
    rw [List.length_append]
    omega
  apply decodeFalconSignature_iff.mpr
  constructor
  . have hnonce : extractNonce (header ++ salt ++ x :: (Bits.pack (xs.flatMap codeword) ++ tail)) = salt := by
      unfold extractNonce JavaScript.subarray
      rw [List.take_left' hstart]
      rw [List.drop_left' hheader]
    rw [hnonce]
  . apply ((decodeFalconSig_exact _ _).1 xs).mpr
    refine ⟨hlength, hxs, ?_⟩
    have hdrop : (header ++ salt ++ x :: (Bits.pack (xs.flatMap codeword) ++ tail)).drop 43
        = Bits.pack (xs.flatMap codeword) ++ tail := by
      rw [List.append_cons]
      apply List.drop_left'
      rw [List.length_append]
      rw [hstart]
      rfl
    rw [hdrop]
    rw [Bits.bits_append]
    rw [Bits.bits_pack]
    rw [List.append_assoc]
    apply List.prefix_append

theorem encodedSignature_decoded [Ethers] [LawfulEthers] {signMsg : Bytes} {decoded : Decoded} {fuel : Nat}
    (hfuel : 16 ≤ fuel) (h : decodeFalconSignature signMsg 512 = .ok decoded)
    : ∃ signature s2, AnvilFalconTx.encodedSignature fuel signMsg = some signature
        ∧ FalconSimpleAccount.decodeSignature signature = some ⟨decoded.nonce, s2⟩
        ∧ s2.toList.map Int.ofNat = decoded.s2 := by
  obtain ⟨hdecoded, hsig⟩ := decodeFalconSignature_iff.mp h
  obtain ⟨hlength, hrange, hdecompress⟩ := decodeFalconSig_spec hfuel hsig
  have hlong : 43 < signMsg.length := length_of_decodeFalconSig hsig
  have hwords : (toModQ decoded.signedS2 12289).length = 512 := by
    unfold toModQ
    rw [List.length_map]
    rw [hlength]
  have hfits : ∀ c ∈ toModQ decoded.signedS2 12289, 0 ≤ c ∧ c < 2 ^ 256 := by
    intro c hc
    have hc := toModQ_range hrange hc
    omega
  obtain ⟨s2, hread, hs2⟩ := AnvilFalconTx.decodeSignature_encode hwords hfits
    (show (extractNonce signMsg).length < 2 ^ 64 by rw [length_extractNonce (by omega)]; decide)
  have hsignature := AnvilFalconTx.encode_signature hwords hfits (extractNonce signMsg)
  refine ⟨_, s2, Eq.trans ?_ hsignature, ?_, ?_⟩
  . unfold AnvilFalconTx.encodedSignature
    rw [hdecompress]
    rfl
  . rw [hdecoded]
    apply hread
  . rw [hdecoded]
    apply hs2

/-- Every salt and every compressible vector of coefficients has a signature message, the account is
given what the strict decoder finds in such a message, and it is given the same for two messages only if
they have the same salt and the same compressed bits. -/
theorem signatures_survive [Ethers] [LawfulEthers]
    : (∀ (header salt tail : Bytes) (x : UInt8) (xs : List Int), header.length = 2 → salt.length = 40 →
          xs.length = 512 → (∀ x ∈ xs, Compressible x) →
          decodeFalconSignature (header ++ salt ++ x :: (Bits.pack (xs.flatMap codeword) ++ tail)) 512
            = .ok ⟨toModQ xs 12289, salt, xs⟩)
        ∧ (∀ (signMsg : Bytes) (decoded : Decoded), decodeFalconSignature signMsg 512 = .ok decoded →
          ∀ fuel ≥ 16, ∃ signature s2, AnvilFalconTx.encodedSignature fuel signMsg = some signature
            ∧ FalconSimpleAccount.decodeSignature signature = some ⟨decoded.nonce, s2⟩
            ∧ s2.toList.map Int.ofNat = decoded.s2)
        ∧ ∀ (signMsg signMsg' : Bytes) (decoded decoded' : Decoded) (fuel : Nat), 16 ≤ fuel →
          decodeFalconSignature signMsg 512 = .ok decoded →
          decodeFalconSignature signMsg' 512 = .ok decoded' →
          AnvilFalconTx.encodedSignature fuel signMsg = AnvilFalconTx.encodedSignature fuel signMsg' →
          decoded = decoded'
            ∧ decoded.signedS2.flatMap codeword <+: Bits.bits (signMsg.drop 43)
            ∧ decoded.signedS2.flatMap codeword <+: Bits.bits (signMsg'.drop 43) := by
  refine ⟨?_, ?_, ?_⟩
  . intro header salt tail x xs hheader hsalt hlength hxs
    apply decodeFalconSignature_compressed hheader hsalt hlength hxs
  . intro signMsg decoded h fuel hfuel
    apply encodedSignature_decoded hfuel h
  . intro signMsg signMsg' decoded decoded' fuel hfuel h h' heq
    obtain ⟨signature, s2, hencoded, hread, hs2⟩ := encodedSignature_decoded hfuel h
    obtain ⟨signature', s2', hencoded', hread', hs2'⟩ := encodedSignature_decoded hfuel h'
    rw [hencoded] at heq
    rw [hencoded'] at heq
    cases heq
    rw [hread] at hread'
    injection hread' with hread'
    injection hread' with hnonce hvector
    obtain ⟨hdecoded, hsig⟩ := decodeFalconSignature_iff.mp h
    obtain ⟨hdecoded', hsig'⟩ := decodeFalconSignature_iff.mp h'
    obtain ⟨_, hsmall, hprefix⟩ := ((decodeFalconSig_exact _ _).1 _).mp hsig
    obtain ⟨_, hsmall', hprefix'⟩ := ((decodeFalconSig_exact _ _).1 _).mp hsig'
    have hmod : toModQ decoded.signedS2 12289 = toModQ decoded'.signedS2 12289 := by
      rw [hvector] at hs2
      rw [hs2] at hs2'
      rw [hdecoded] at hs2'
      rw [hdecoded'] at hs2'
      apply hs2'
    have hsigned := toModQ_inj hsmall hsmall' hmod
    have hall : decoded = decoded' := by
      rw [hdecoded] at hnonce ⊢
      rw [hdecoded'] at hnonce ⊢
      dsimp only at hnonce
      rw [hsigned]
      rw [hnonce]
    refine ⟨hall, hprefix, ?_⟩
    rw [hsigned]
    apply hprefix'

def compressedMessage (xs : List Int) : Bytes :=
  [0x39, 0x30] ++ List.replicate 40 7 ++ 0x29 :: (Bits.pack (xs.flatMap codeword) ++ [])

theorem signatures_survive_negative
    : let _ := Ethers.sample
      let signMsg := compressedMessage (List.replicate 512 (-3))
      ∃ signature s2, AnvilFalconTx.encodedSignature 16 signMsg = some signature
        ∧ FalconSimpleAccount.decodeSignature signature = some ⟨List.replicate 40 7, s2⟩
        ∧ s2.toList.map Int.ofNat = List.replicate 512 12286
        ∧ (List.replicate 512 (-3)).flatMap codeword <+: Bits.bits (signMsg.drop 43) := by
  intro ethers signMsg
  have hlawful : LawfulEthers := Ethers.sample_lawful
  obtain ⟨hcompressed, hdecoded, hunique⟩ := signatures_survive
  have hcompressible : ∀ x ∈ List.replicate 512 (-3), Compressible x := by
    intro x hx
    rw [List.eq_of_mem_replicate hx]
    unfold Compressible
    decide
  have hsignMsg := hcompressed [0x39, 0x30] (List.replicate 40 7) [] 0x29 (List.replicate 512 (-3)) rfl
    List.length_replicate List.length_replicate hcompressible
  obtain ⟨signature, s2, hencoded, hread, hs2⟩ := hdecoded signMsg _ hsignMsg 16 (Nat.le_refl 16)
  obtain ⟨_, hprefix, _⟩ := hunique signMsg signMsg _ _ 16 (Nat.le_refl 16) hsignMsg hsignMsg rfl
  refine ⟨signature, s2, hencoded, hread, ?_, hprefix⟩
  rw [hs2]
  unfold toModQ
  rw [List.map_replicate]
  rfl

end DecodeFinal
