import FalconSmartAccount.Client.Ethers
import FalconSmartAccount.EntryPoint.EntryPoint
import FalconSmartAccount.Evm.Keccak

/-!
The hash that an account signs: computed by the entry point from raw calldata, by the simulation
contract with a domain separator of its own, and by the client library. The three agree, and the
hash commits to everything but the signature.
-/

/-! ## Typed data -/

namespace MessageHashUtils

def typedData (domainSeparator structHash : Word) : Bytes :=
  [0x19, 0x01] ++ Abi.wordBytes domainSeparator.toNat ++ Abi.wordBytes structHash.toNat

def toTypedDataHash (keccak256 : Bytes → Word) (domainSeparator structHash : Word) : Word :=
  keccak256 (typedData domainSeparator structHash)

end MessageHashUtils

namespace EIP712

variable (keccak256 : Bytes → Word)

def TYPE_HASH : Word :=
  keccak256 (
    "EIP712Domain(string name,string version,uint256 chainId,address verifyingContract)"
    : String).toUTF8.toList

def domain (hashedName hashedVersion chainid : Word) (this : Address) : Bytes :=
  Abi.words [(TYPE_HASH keccak256).toNat, hashedName.toNat, hashedVersion.toNat,
    chainid.toNat, this.toNat]

def buildDomainSeparator (hashedName hashedVersion chainid : Word) (this : Address) : Word :=
  keccak256 (domain keccak256 hashedName hashedVersion chainid this)

end EIP712

namespace EntryPoint

def DOMAIN_NAME : Bytes := ("ERC4337" : String).toUTF8.toList

def DOMAIN_VERSION : Bytes := ("1" : String).toUTF8.toList

/-- What `EIP712(DOMAIN_NAME, DOMAIN_VERSION)` and `MessageHashUtils` give the entry point at `this`. -/
structure Config.UsesEIP712 (cfg : Config) (chainid : Word) (this : Address) : Prop where
  domainSeparatorV4 : cfg.domainSeparatorV4 = EIP712.buildDomainSeparator cfg.keccak256
    (cfg.keccak256 DOMAIN_NAME) (cfg.keccak256 DOMAIN_VERSION) chainid this
  toTypedDataHash : cfg.toTypedDataHash = MessageHashUtils.toTypedDataHash cfg.keccak256

/-- The OpenZeppelin libraries that the entry point is built with. -/
def openZeppelin (chainid : Word) (this senderCreator : Address)
    (abiDecode : Bytes → Option Message) : Config where
  senderCreator
  keccak256
  domainSeparatorV4 := EIP712.buildDomainSeparator keccak256 (keccak256 DOMAIN_NAME)
    (keccak256 DOMAIN_VERSION) chainid this
  toTypedDataHash := MessageHashUtils.toTypedDataHash keccak256
  nonReentrantBefore entered := if entered then none else some true
  nonReentrantAfter _ := false
  abiDecode

theorem openZeppelin_usesEIP712 {chainid : Word} {this senderCreator : Address}
    {abiDecode : Bytes → Option Message}
    : (openZeppelin chainid this senderCreator abiDecode).UsesEIP712 chainid this :=
  ⟨rfl, rfl⟩

end EntryPoint

namespace EntryPointSimulations

structure Storage where
  senderCreator : Address
  domainSeparatorV4 : Word

def TYPE_HASH (keccak256 : Bytes → Word) : Word :=
  keccak256 (
    "EIP712Domain(string name,string version,uint256 chainId,address verifyingContract)"
    : String).toUTF8.toList

def buildDomainSeparator (keccak256 : Bytes → Word) (chainid : Word) (this : Address) : Word :=
  let hashedName := keccak256 EntryPoint.DOMAIN_NAME
  let hashedVersion := keccak256 EntryPoint.DOMAIN_VERSION
  keccak256 (Abi.words [(TYPE_HASH keccak256).toNat, hashedName.toNat, hashedVersion.toNat,
    chainid.toNat, this.toNat])

def initDomainSeparator (keccak256 : Bytes → Word) (chainid : Word) (this : Address) (s : Storage)
    : Storage :=
  { s with domainSeparatorV4 := buildDomainSeparator keccak256 chainid this }

/-- The getters that the simulation overrides. -/
def config (cfg : EntryPoint.Config) (s : Storage) : EntryPoint.Config :=
  { cfg with
    senderCreator := s.senderCreator
    domainSeparatorV4 := s.domainSeparatorV4 }

end EntryPointSimulations

/-! ## Raw calldata -/

/-- The `n`-th member of a struct or tuple. -/
def Abi.member (userOp n : Nat) : Nat := userOp + 32 * n

/-- As an argument of a call. -/
def PackedUserOperation.abiEncode (userOp : PackedUserOperation) : Bytes :=
  let initCode := Abi.bytesTail userOp.initCode
  let callData := Abi.bytesTail userOp.callData
  let paymasterAndData := Abi.bytesTail userOp.paymasterAndData
  let head := 32 * 9
  Abi.words [userOp.sender.toNat, userOp.nonce.toNat, head, head + initCode.length,
      userOp.accountGasLimits.toNat, userOp.preVerificationGas.toNat, userOp.gasFees.toNat,
      head + initCode.length + callData.length,
      head + initCode.length + callData.length + paymasterAndData.length]
    ++ initCode ++ callData ++ paymasterAndData ++ Abi.bytesTail userOp.signature

namespace UserOperationLib.Raw

open Abi

/-- Only the low 160 bits of the first member. -/
def getSender (calldata : Bytes) (userOp : Nat) : Address := BitVec.ofNat 160 (wordAt calldata userOp)

/-- Offset and length of a member of type `bytes`. -/
def bytesMember (calldata : Bytes) (userOp n : Nat) : Nat × Nat :=
  let tail := userOp + wordAt calldata (member userOp n)
  (tail + 32, wordAt calldata tail)

variable (keccak256 : Bytes → Word)

def calldataKeccak (calldata : Bytes) (data : Nat × Nat) : Word :=
  keccak256 (bytesAt calldata data.1 data.2)

def encode (calldata : Bytes) (userOp : Nat) : Bytes :=
  let sender := getSender calldata userOp
  let nonce := wordAt calldata (member userOp 1)
  let hashInitCode := calldataKeccak keccak256 calldata (bytesMember calldata userOp 2)
  let hashCallData := calldataKeccak keccak256 calldata (bytesMember calldata userOp 3)
  let accountGasLimits := wordAt calldata (member userOp 4)
  let preVerificationGas := wordAt calldata (member userOp 5)
  let gasFees := wordAt calldata (member userOp 6)
  let hashPaymasterAndData := calldataKeccak keccak256 calldata (bytesMember calldata userOp 7)
  words [(PACKED_USEROP_TYPEHASH keccak256).toNat,
    sender.toNat, nonce,
    hashInitCode.toNat, hashCallData.toNat,
    accountGasLimits, preVerificationGas, gasFees,
    hashPaymasterAndData.toNat]

def hash (calldata : Bytes) (userOp : Nat) : Word := keccak256 (encode keccak256 calldata userOp)

end UserOperationLib.Raw

/-- `getUserOpHash` of the operation at the offset `userOp`. -/
def EntryPoint.Raw.getUserOpHash (cfg : EntryPoint.Config) (calldata : Bytes) (userOp : Nat) : Word :=
  cfg.toTypedDataHash cfg.domainSeparatorV4 (UserOperationLib.Raw.hash cfg.keccak256 calldata userOp)

namespace UserOperationLib.Raw

open Abi

theorem member_word {pre head rest post : Bytes} {ws : List Nat} {n : Nat}
    (hhead : head = words ws) (hn : n < ws.length) (hlt : ws[n] < Yul.wordSize)
    : wordAt (pre ++ (head ++ rest) ++ post) (member pre.length n) = ws[n] := by
  have hlen : 32 * n + 32 ≤ (words ws).length := by
    rw [words_length]
    omega
  unfold member
  rw [hhead, List.append_assoc, List.append_assoc, wordAt_append_right, wordAt_append_left hlen,
    wordAt_words hn hlt]

/-- A member of type `bytes` whose word holds the offset of what the ABI writes for it. -/
theorem member_bytes {calldata bytes : Bytes} {userOp n : Nat} (before after : Bytes)
    (hcalldata : calldata = before ++ bytesTail bytes ++ after)
    (hword : userOp + wordAt calldata (member userOp n) = before.length)
    (hlt : bytes.length < Yul.wordSize)
    : bytesAt calldata (bytesMember calldata userOp n).1 (bytesMember calldata userOp n).2 = bytes := by
  obtain ⟨hlen, hread⟩ := read_bytesTail before bytes after hlt
  unfold bytesMember
  dsimp only
  rw [hword, hcalldata, hlen, hread]

theorem length_le_bytesTail (bytes : Bytes) : bytes.length ≤ (bytesTail bytes).length := by
  unfold bytesTail
  rw [List.append_assoc, List.length_append, List.length_append]
  omega

/-- Raw reads of a well encoded operation give its fields. -/
theorem encode_abiEncode (keccak256 : Bytes → Word) (userOp : PackedUserOperation) (pre post : Bytes)
    (hfits : (pre ++ userOp.abiEncode ++ post).length < Yul.wordSize)
    : encode keccak256 (pre ++ userOp.abiEncode ++ post) pre.length
        = UserOperationLib.encode keccak256 userOp := by
  let initCode := bytesTail userOp.initCode
  let callData := bytesTail userOp.callData
  let paymasterAndData := bytesTail userOp.paymasterAndData
  let signature := bytesTail userOp.signature
  let ws := [userOp.sender.toNat, userOp.nonce.toNat, 288, 288 + initCode.length,
    userOp.accountGasLimits.toNat, userOp.preVerificationGas.toNat, userOp.gasFees.toNat,
    288 + initCode.length + callData.length,
    288 + initCode.length + callData.length + paymasterAndData.length]
  have hlen : (words ws).length = 288 := by
    rw [words_length]
    rfl
  have hinitCode : userOp.initCode.length ≤ initCode.length := length_le_bytesTail _
  have hcallData : userOp.callData.length ≤ callData.length := length_le_bytesTail _
  have hpaymaster : userOp.paymasterAndData.length ≤ paymasterAndData.length := length_le_bytesTail _
  have hencode : userOp.abiEncode
      = words ws ++ (initCode ++ (callData ++ (paymasterAndData ++ signature))) := by
    simp [PackedUserOperation.abiEncode, ws, initCode, callData, paymasterAndData, signature]
  have htotal : pre.length + (288 + (initCode.length + (callData.length
      + (paymasterAndData.length + (signature.length + post.length))))) < Yul.wordSize := by
    rw [hencode] at hfits
    simpa only [List.append_assoc, List.length_append, hlen] using hfits
  have hsmall : ∀ w : Word, w.toNat < Yul.wordSize := fun w => w.isLt
  have haddress : userOp.sender.toNat < Yul.wordSize :=
    Nat.lt_of_lt_of_le userOp.sender.isLt (by norm_num [Yul.wordSize])
  generalize hcalldata : pre ++ userOp.abiEncode ++ post = calldata
  have hword {n w : Nat} (hn : ws[n]? = some w) (hlt : w < Yul.wordSize)
      : wordAt calldata (member pre.length n) = w := by
    obtain ⟨hn', hget⟩ := List.getElem?_eq_some_iff.mp hn
    rw [← hcalldata, hencode, ← hget]
    exact member_word rfl hn' (by rwa [hget])
  -- `initCode`, `callData` and `paymasterAndData` are members 2, 3 and 7
  have hread2 : bytesAt calldata (bytesMember calldata pre.length 2).1
      (bytesMember calldata pre.length 2).2 = userOp.initCode :=
    member_bytes (pre ++ words ws)
      (callData ++ (paymasterAndData ++ signature) ++ post)
      (by rw [← hcalldata, hencode]; simp [initCode])
      (by rw [hword rfl (by omega), List.length_append, hlen]) (by omega)
  have hread3 : bytesAt calldata (bytesMember calldata pre.length 3).1
      (bytesMember calldata pre.length 3).2 = userOp.callData :=
    member_bytes (pre ++ words ws ++ initCode)
      (paymasterAndData ++ signature ++ post)
      (by rw [← hcalldata, hencode]; simp [callData])
      (by rw [hword rfl (by omega)]; simp only [List.length_append, hlen]; omega) (by omega)
  have hread7 : bytesAt calldata (bytesMember calldata pre.length 7).1
      (bytesMember calldata pre.length 7).2 = userOp.paymasterAndData :=
    member_bytes (pre ++ words ws ++ initCode ++ callData)
      (signature ++ post)
      (by rw [← hcalldata, hencode]; simp [paymasterAndData])
      (by rw [hword rfl (by omega)]; simp only [List.length_append, hlen]; omega) (by omega)
  have hsender : getSender calldata pre.length = userOp.sender := by
    have := hword (n := 0) rfl haddress
    unfold getSender
    rw [show wordAt calldata pre.length = userOp.sender.toNat from this, BitVec.ofNat_toNat,
      BitVec.setWidth_eq]
  unfold encode calldataKeccak
  dsimp only
  rw [hread2, hread3, hread7, hsender, hword (n := 1) rfl (hsmall _), hword (n := 4) rfl (hsmall _),
    hword (n := 5) rfl (hsmall _), hword (n := 6) rfl (hsmall _)]
  rfl

end UserOperationLib.Raw

/-! ## The client library -/

namespace Client

/-- Numbers are `BigNumber`s, which are not bounded, and byte strings stand for their hex strings. -/
structure UserOperation where
  sender : Address
  nonce : Nat
  initCode : Bytes
  callData : Bytes
  callGasLimit : Nat
  verificationGasLimit : Nat
  preVerificationGas : Nat
  maxFeePerGas : Nat
  maxPriorityFeePerGas : Nat
  paymaster : Option Bytes
  paymasterVerificationGasLimit : Nat
  paymasterPostOpGasLimit : Nat
  paymasterData : Bytes
  signature : Bytes

structure PackedUserOperation where
  sender : Address
  nonce : Nat
  callData : Bytes
  accountGasLimits : Bytes
  initCode : Bytes
  preVerificationGas : Nat
  gasFees : Bytes
  paymasterAndData : Bytes
  signature : Bytes

def AddressZero : Bytes := List.replicate 20 0

section

open Ethers

variable [Ethers]

def packAccountGasLimits (verificationGasLimit callGasLimit : Nat) : Option Bytes := do
  return hexConcat [← hexZeroPad (hexlify verificationGasLimit) 16, ← hexZeroPad (hexlify callGasLimit) 16]

def packPaymasterData (paymaster : Bytes) (paymasterVerificationGasLimit postOpGasLimit : Nat)
    (paymasterData : Bytes) : Option Bytes := do
  return hexConcat [paymaster, ← hexZeroPad (hexlify paymasterVerificationGasLimit) 16,
    ← hexZeroPad (hexlify postOpGasLimit) 16, paymasterData]

/-- `userOp.paymaster?.length >= 20` counts the digits of the hex string and its `0x`. -/
def packUserOp (userOp : UserOperation) : Option PackedUserOperation := do
  let accountGasLimits ← packAccountGasLimits userOp.verificationGasLimit userOp.callGasLimit
  let gasFees ← packAccountGasLimits userOp.maxPriorityFeePerGas userOp.maxFeePerGas
  let paymasterAndData ←
    match userOp.paymaster with
    | some paymaster =>
      if 2 + 2 * paymaster.length ≥ 20 ∧ paymaster ≠ AddressZero then
        packPaymasterData paymaster userOp.paymasterVerificationGasLimit
          userOp.paymasterPostOpGasLimit userOp.paymasterData
      else
        some []
    | none => some []
  return {
    sender := userOp.sender
    nonce := userOp.nonce
    callData := userOp.callData
    accountGasLimits
    initCode := userOp.initCode
    preVerificationGas := userOp.preVerificationGas
    gasFees
    paymasterAndData
    signature := userOp.signature }

variable (keccak256 : Bytes → Word)

/-- The hash as a hex string. -/
def keccakHex (bytes : Bytes) : Bytes := Abi.wordBytes (keccak256 bytes).toNat

def PACKED_USEROP_TYPEHASH : Bytes :=
  keccakHex keccak256 (
    "PackedUserOperation(address sender,uint256 nonce,bytes initCode,bytes callData,bytes32 accountGasLimits,uint256 preVerificationGas,bytes32 gasFees,bytes paymasterAndData)"
    : String).toUTF8.toList

/-- With `forSignature = true`. -/
def encodeUserOp (userOp : UserOperation) : Option Bytes := do
  let packedUserOp ← packUserOp userOp
  encode [.bytes32 (PACKED_USEROP_TYPEHASH keccak256),
    .address packedUserOp.sender, .uint256 (.bigint packedUserOp.nonce),
    .bytes32 (keccakHex keccak256 packedUserOp.initCode),
    .bytes32 (keccakHex keccak256 packedUserOp.callData),
    .bytes32 packedUserOp.accountGasLimits, .uint256 (.bigint packedUserOp.preVerificationGas),
    .bytes32 packedUserOp.gasFees,
    .bytes32 (keccakHex keccak256 packedUserOp.paymasterAndData)]

def DOMAIN_NAME : Bytes := ("ERC4337" : String).toUTF8.toList

def DOMAIN_VERSION : Bytes := ("1" : String).toUTF8.toList

/-- The chain id is a `number`. -/
def getDomainSeparator (entryPoint : Address) (chainId : Nat) : Option Bytes := do
  let encoded ← encode [
    .bytes32 (keccakHex keccak256 (
      "EIP712Domain(string name,string version,uint256 chainId,address verifyingContract)"
      : String).toUTF8.toList),
    .bytes32 (keccakHex keccak256 DOMAIN_NAME),
    .bytes32 (keccakHex keccak256 DOMAIN_VERSION),
    .uint256 (.number chainId),
    .address entryPoint]
  return keccakHex keccak256 encoded

def getUserOpHash (op : UserOperation) (entryPoint : Address) (chainId : Nat) : Option Bytes := do
  let packed ← encodeUserOp keccak256 op
  return keccakHex keccak256 (hexConcat [[0x19, 0x01], ← getDomainSeparator keccak256 entryPoint chainId,
    keccakHex keccak256 packed])

end

/-- The bounds of the Solidity types that the fields are packed into. -/
structure UserOperation.InRange (op : UserOperation) : Prop where
  nonce : op.nonce < 2 ^ 256
  preVerificationGas : op.preVerificationGas < 2 ^ 256
  callGasLimit : op.callGasLimit < 2 ^ 128
  verificationGasLimit : op.verificationGasLimit < 2 ^ 128
  maxFeePerGas : op.maxFeePerGas < 2 ^ 128
  maxPriorityFeePerGas : op.maxPriorityFeePerGas < 2 ^ 128
  paymasterVerificationGasLimit : op.paymasterVerificationGasLimit < 2 ^ 128
  paymasterPostOpGasLimit : op.paymasterPostOpGasLimit < 2 ^ 128

theorem packed_lt {high low : Nat} (hhigh : high < 2 ^ 128) (hlow : low < 2 ^ 128)
    : high * 2 ^ 128 + low < Yul.wordSize := by
  unfold Yul.wordSize
  omega

section

variable [Ethers] [LawfulEthers]

theorem pad_ok {value : Nat} (h : value < 2 ^ 128)
    : Ethers.hexZeroPad (Ethers.hexlify value) 16 = some (Abi.uintBytes 16 value) := by
  apply Ethers.hexZeroPad_hexlify
  . decide
  . norm_num
    exact h

theorem packAccountGasLimits_ok {high low : Nat} (hhigh : high < 2 ^ 128) (hlow : low < 2 ^ 128)
    : packAccountGasLimits high low = some (Abi.wordBytes (high * 2 ^ 128 + low)) := by
  unfold packAccountGasLimits
  rw [pad_ok hhigh, pad_ok hlow, ← Abi.uintBytes_append hlow]
  simp [LawfulEthers.hexConcat]

theorem packPaymasterData_ok (paymaster paymasterData : Bytes) {gas postOpGas : Nat}
    (hgas : gas < 2 ^ 128) (hpostOpGas : postOpGas < 2 ^ 128)
    : packPaymasterData paymaster gas postOpGas paymasterData
        = some (paymaster ++ Abi.uintBytes 16 gas ++ Abi.uintBytes 16 postOpGas ++ paymasterData) := by
  unfold packPaymasterData
  rw [pad_ok hgas, pad_ok hpostOpGas]
  simp [LawfulEthers.hexConcat]

end

/-- The paymaster that `packUserOp` puts into the packed operation. -/
def UserOperation.payer (op : UserOperation) : Option Bytes :=
  op.paymaster.filter fun paymaster => 2 + 2 * paymaster.length ≥ 20 ∧ paymaster ≠ AddressZero

def UserOperation.paymasterAndData (op : UserOperation) : Bytes :=
  match op.payer with
  | some paymaster =>
    paymaster ++ Abi.uintBytes 16 op.paymasterVerificationGasLimit
      ++ Abi.uintBytes 16 op.paymasterPostOpGasLimit ++ op.paymasterData
  | none => []

section

variable [Ethers] [LawfulEthers]

theorem packUserOp_ok {op : UserOperation} (hop : op.InRange)
    : packUserOp op = some {
        sender := op.sender
        nonce := op.nonce
        callData := op.callData
        accountGasLimits := Abi.wordBytes (op.verificationGasLimit * 2 ^ 128 + op.callGasLimit)
        initCode := op.initCode
        preVerificationGas := op.preVerificationGas
        gasFees := Abi.wordBytes (op.maxPriorityFeePerGas * 2 ^ 128 + op.maxFeePerGas)
        paymasterAndData := op.paymasterAndData
        signature := op.signature } := by
  have hdata (paymaster : Bytes) := packPaymasterData_ok paymaster op.paymasterData
    hop.paymasterVerificationGasLimit hop.paymasterPostOpGasLimit
  unfold packUserOp UserOperation.paymasterAndData UserOperation.payer
  rw [packAccountGasLimits_ok hop.verificationGasLimit hop.callGasLimit,
    packAccountGasLimits_ok hop.maxPriorityFeePerGas hop.maxFeePerGas]
  cases op.paymaster with
  | none => rfl
  | some paymaster =>
    by_cases hpacked : 2 + 2 * paymaster.length ≥ 20 ∧ paymaster ≠ AddressZero
    . rw [Option.filter_some_pos (by exact decide_eq_true hpacked)]
      simp only [if_pos hpacked, hdata]
      rfl
    . rw [Option.filter_some_neg (by exact decide_eq_false hpacked)]
      simp only [if_neg hpacked]
      rfl

/-- Ethers refuses a chain id of that size. -/
theorem getUserOpHash_unsafe {keccak256 : Bytes → Word} {op : UserOperation} {entryPoint : Address}
    {chainId : Nat} (h : 2 ^ 53 - 1 ≤ chainId)
    : getUserOpHash keccak256 op entryPoint chainId = none := by
  have hseparator : getDomainSeparator keccak256 entryPoint chainId = none := by
    unfold getDomainSeparator
    rw [LawfulEthers.encode]
    simp [Abi.encode, AbiValue.part, keccakHex, Ethers.number_word_unsafe h]
  unfold getUserOpHash
  rw [hseparator]
  cases encodeUserOp keccak256 op <;> rfl

end

end Client

/-- The packed operation as the argument of a call: its fields by the types of the contract. -/
def abiArgument (userOp : Client.PackedUserOperation) : Option PackedUserOperation :=
  if userOp.nonce < Yul.wordSize ∧ userOp.preVerificationGas < Yul.wordSize
      ∧ userOp.accountGasLimits.length = 32 ∧ userOp.gasFees.length = 32 then
    some {
      sender := userOp.sender
      nonce := BitVec.ofNat 256 userOp.nonce
      initCode := userOp.initCode
      callData := userOp.callData
      accountGasLimits := BitVec.ofNat 256 (Abi.wordAt userOp.accountGasLimits 0)
      preVerificationGas := BitVec.ofNat 256 userOp.preVerificationGas
      gasFees := BitVec.ofNat 256 (Abi.wordAt userOp.gasFees 0)
      paymasterAndData := userOp.paymasterAndData
      signature := userOp.signature }
  else
    none

/-- The operation with the types of the contract. -/
def toContract (op : Client.UserOperation) : PackedUserOperation where
  sender := op.sender
  nonce := BitVec.ofNat 256 op.nonce
  initCode := op.initCode
  callData := op.callData
  accountGasLimits := BitVec.ofNat 256 (op.verificationGasLimit * 2 ^ 128 + op.callGasLimit)
  preVerificationGas := BitVec.ofNat 256 op.preVerificationGas
  gasFees := BitVec.ofNat 256 (op.maxPriorityFeePerGas * 2 ^ 128 + op.maxFeePerGas)
  paymasterAndData := op.paymasterAndData
  signature := op.signature

theorem abiArgument_packUserOp [Ethers] [LawfulEthers] {op : Client.UserOperation} (hop : op.InRange)
    : ∃ packed, Client.packUserOp op = some packed ∧ abiArgument packed = some (toContract op) := by
  have hlimits := Client.packed_lt hop.verificationGasLimit hop.callGasLimit
  have hfees := Client.packed_lt hop.maxPriorityFeePerGas hop.maxFeePerGas
  refine ⟨_, Client.packUserOp_ok hop, ?_⟩
  unfold abiArgument
  dsimp only
  rw [if_pos ⟨hop.nonce, hop.preVerificationGas, Abi.wordBytes_length _, Abi.wordBytes_length _⟩,
    Abi.wordAt_wordBytes hlimits, Abi.wordAt_wordBytes hfees]
  rfl

namespace EntryPoint

variable {cfg : Config} {chainid : Word} {this : Address}

/-- The typed data that the entry point hashes, in full. -/
theorem Config.UsesEIP712.getUserOpHash (h : cfg.UsesEIP712 chainid this) (userOp : PackedUserOperation)
    : getUserOpHash cfg userOp
        = cfg.keccak256 (MessageHashUtils.typedData cfg.domainSeparatorV4
          (UserOperationLib.hash cfg.keccak256 userOp)) := by
  unfold EntryPoint.getUserOpHash
  rw [h.toTypedDataHash]
  rfl

theorem initDomainSeparator_eq (h : cfg.UsesEIP712 chainid this) (s : EntryPointSimulations.Storage)
    : (EntryPointSimulations.config cfg
        (EntryPointSimulations.initDomainSeparator cfg.keccak256 chainid this s)).domainSeparatorV4
        = cfg.domainSeparatorV4 :=
  h.domainSeparatorV4.symm

theorem getDomainSeparator_eq [Ethers] [LawfulEthers] (h : cfg.UsesEIP712 chainid this)
    (hchainid : chainid.toNat < 2 ^ 53 - 1)
    : Client.getDomainSeparator cfg.keccak256 this chainid.toNat
        = some (Abi.wordBytes cfg.domainSeparatorV4.toNat) := by
  unfold Client.getDomainSeparator Client.keccakHex
  rw [LawfulEthers.encode]
  simp only [Abi.encode, AbiValue.part, Abi.wordBytes_length, Ethers.number_word hchainid, if_pos,
    List.mapM_cons, List.mapM_nil, Option.map_some, Option.bind_eq_bind, Option.bind_some, Option.pure_def]
  rw [h.domainSeparatorV4]
  rfl

/-- The client, the contract and the simulation compute one hash, and the contract does from any
calldata that holds the operation. -/
theorem getUserOpHash_agrees [Ethers] [LawfulEthers] (h : cfg.UsesEIP712 chainid this)
    (hchainid : chainid.toNat < 2 ^ 53 - 1) {op : Client.UserOperation} (hop : op.InRange)
    : ∃ packed userOp, Client.packUserOp op = some packed ∧ abiArgument packed = some userOp
        ∧ Client.getUserOpHash cfg.keccak256 op this chainid.toNat
            = some (Abi.wordBytes (getUserOpHash cfg userOp).toNat)
        ∧ (∀ pre post : Bytes, (pre ++ userOp.abiEncode ++ post).length < Yul.wordSize →
            Raw.getUserOpHash cfg (pre ++ userOp.abiEncode ++ post) pre.length
              = getUserOpHash cfg userOp)
        ∧ ∀ s, getUserOpHash (EntryPointSimulations.config cfg
            (EntryPointSimulations.initDomainSeparator cfg.keccak256 chainid this s)) userOp
              = getUserOpHash cfg userOp := by
  have hlimits := Client.packed_lt hop.verificationGasLimit hop.callGasLimit
  have hfees := Client.packed_lt hop.maxPriorityFeePerGas hop.maxFeePerGas
  have hnonce : op.nonce < Yul.wordSize := hop.nonce
  have hgas : op.preVerificationGas < Yul.wordSize := hop.preVerificationGas
  have htoNat (w : Nat) (hw : w < Yul.wordSize) : (BitVec.ofNat 256 w).toNat = w := Nat.mod_eq_of_lt hw
  have hpacked := Client.packUserOp_ok hop
  obtain ⟨packed, hpacked', hargument⟩ := abiArgument_packUserOp hop
  refine ⟨packed, toContract op, hpacked', hargument, ?_, ?_, ?_⟩
  . have hencoded : Client.encodeUserOp cfg.keccak256 op
        = some (UserOperationLib.encode cfg.keccak256 (toContract op)) := by
      have htypehash : Client.PACKED_USEROP_TYPEHASH cfg.keccak256
          = Abi.wordBytes (UserOperationLib.PACKED_USEROP_TYPEHASH cfg.keccak256).toNat := rfl
      unfold Client.encodeUserOp Client.keccakHex
      rw [hpacked, Option.bind_eq_bind, Option.bind_some, htypehash]
      rw [LawfulEthers.encode]
      simp only [Abi.encode, AbiValue.part, Abi.wordBytes_length, Ethers.bigint_word hnonce,
        Ethers.bigint_word hgas, if_pos, List.mapM_cons, List.mapM_nil, Option.map_some,
        Option.bind_eq_bind, Option.bind_some, Option.pure_def, Abi.assemble, Abi.heads, Abi.tails]
      unfold UserOperationLib.encode
      simp only [toContract, htoNat _ hnonce, htoNat _ hgas, htoNat _ hlimits, htoNat _ hfees,
        List.flatMap_cons, List.flatMap_nil, List.append_nil]
    unfold Client.getUserOpHash
    rw [hencoded, h.getUserOpHash, getDomainSeparator_eq h hchainid]
    unfold MessageHashUtils.typedData
    simp only [Option.bind_eq_bind, Option.bind_some, LawfulEthers.hexConcat, List.flatten_cons,
      List.flatten_nil, List.append_nil, List.append_assoc]
    rfl
  . intro pre post hfits
    unfold Raw.getUserOpHash UserOperationLib.Raw.hash
    rw [UserOperationLib.Raw.encode_abiEncode _ _ _ _ hfits]
    rfl
  . intro s
    unfold getUserOpHash
    rw [initDomainSeparator_eq h]
    rfl

def sponsoredOp : Client.UserOperation where
  sender := 3
  nonce := 2 ^ 64
  initCode := []
  callData := [0xde, 0xad]
  callGasLimit := 200000
  verificationGasLimit := 100000
  preVerificationGas := 21000
  maxFeePerGas := 2 * 10 ^ 9
  maxPriorityFeePerGas := 10 ^ 9
  paymaster := some (List.replicate 20 7)
  paymasterVerificationGasLimit := 300000
  paymasterPostOpGasLimit := 0
  paymasterData := [1]
  signature := []

theorem sponsoredOp_inRange : sponsoredOp.InRange := by
  constructor <;> decide

theorem getUserOpHash_agrees_sponsored
    : let _ := Ethers.sample
      let cfg := openZeppelin 31337 1 2 fun _ => none
      ∃ packed userOp, Client.packUserOp sponsoredOp = some packed ∧ abiArgument packed = some userOp
        ∧ Client.getUserOpHash cfg.keccak256 sponsoredOp 1 31337
            = some (Abi.wordBytes (getUserOpHash cfg userOp).toNat) := by
  intro ethers cfg
  have hlawful : LawfulEthers := Ethers.sample_lawful
  have husesEIP712 : cfg.UsesEIP712 31337 1 := openZeppelin_usesEIP712
  obtain ⟨packed, userOp, hpacked, hargument, hhash, _⟩ :=
    getUserOpHash_agrees husesEIP712 (by decide) sponsoredOp_inRange
  exact ⟨packed, userOp, hpacked, hargument, hhash⟩

/-- The contract hashes for every chain id, but the client throws. -/
theorem getUserOpHash_differs
    : let _ := Ethers.sample
      let chainid : Word := 9007199254740991
      let cfg := openZeppelin chainid 1 2 fun _ => none
      sponsoredOp.InRange ∧ cfg.UsesEIP712 chainid 1
        ∧ ¬∃ packed userOp, Client.packUserOp sponsoredOp = some packed ∧ abiArgument packed = some userOp
            ∧ Client.getUserOpHash cfg.keccak256 sponsoredOp 1 chainid.toNat
                = some (Abi.wordBytes (getUserOpHash cfg userOp).toNat) := by
  intro ethers chainid cfg
  have hlawful : LawfulEthers := Ethers.sample_lawful
  refine ⟨sponsoredOp_inRange, openZeppelin_usesEIP712, ?_⟩
  rintro ⟨packed, userOp, _, _, hhash⟩
  rw [Client.getUserOpHash_unsafe (by decide)] at hhash
  cases hhash

/-! ## What the hash commits to -/

theorem typedData_inj {a b a' b' : Word}
    (h : MessageHashUtils.typedData a b = MessageHashUtils.typedData a' b')
    : a = a' ∧ b = b' := by
  unfold MessageHashUtils.typedData at h
  obtain ⟨hfirst, hlast⟩ := List.append_inj h (by simp)
  obtain ⟨_, hfirst⟩ := List.append_inj hfirst rfl
  exact ⟨BitVec.eq_of_toNat_eq (Abi.wordBytes_inj a.isLt a'.isLt hfirst),
    BitVec.eq_of_toNat_eq (Abi.wordBytes_inj b.isLt b'.isLt hlast)⟩

theorem address_toNat_lt (a : Address) : a.toNat < Yul.wordSize :=
  Nat.lt_of_lt_of_le a.isLt (by norm_num [Yul.wordSize])

theorem domain_inj {keccak256 : Bytes → Word} {name version chainid chainid' : Word} {this this' : Address}
    (h : EIP712.domain keccak256 name version chainid this
      = EIP712.domain keccak256 name version chainid' this')
    : chainid = chainid' ∧ this = this' := by
  have hlt (chainid : Word) (this : Address) : ∀ w ∈ [(EIP712.TYPE_HASH keccak256).toNat, name.toNat,
      version.toNat, chainid.toNat, this.toNat], w < Yul.wordSize := by
    intro w hw
    simp only [List.mem_cons, List.not_mem_nil, or_false] at hw
    rcases hw with rfl | rfl | rfl | rfl | rfl
    all_goals first | exact BitVec.isLt _ | exact address_toNat_lt this
  have heq := Abi.words_inj (by simp) (hlt chainid this) (hlt chainid' this') h
  simp only [List.cons.injEq, true_and, and_true] at heq
  exact ⟨BitVec.eq_of_toNat_eq heq.1, BitVec.eq_of_toNat_eq heq.2⟩

/-- The fields of fixed size and the hashes of the others can be read off the encoding. -/
theorem encode_inj {keccak256 : Bytes → Word} {userOp userOp' : PackedUserOperation}
    (h : UserOperationLib.encode keccak256 userOp = UserOperationLib.encode keccak256 userOp')
    : userOp.sender = userOp'.sender ∧ userOp.nonce = userOp'.nonce
        ∧ keccak256 userOp.initCode = keccak256 userOp'.initCode
        ∧ keccak256 userOp.callData = keccak256 userOp'.callData
        ∧ userOp.accountGasLimits = userOp'.accountGasLimits
        ∧ userOp.preVerificationGas = userOp'.preVerificationGas
        ∧ userOp.gasFees = userOp'.gasFees
        ∧ keccak256 userOp.paymasterAndData = keccak256 userOp'.paymasterAndData := by
  have hlt (userOp : PackedUserOperation) : ∀ w ∈
      [(UserOperationLib.PACKED_USEROP_TYPEHASH keccak256).toNat, userOp.sender.toNat,
        userOp.nonce.toNat, (keccak256 userOp.initCode).toNat, (keccak256 userOp.callData).toNat,
        userOp.accountGasLimits.toNat, userOp.preVerificationGas.toNat, userOp.gasFees.toNat,
        (keccak256 userOp.paymasterAndData).toNat], w < Yul.wordSize := by
    intro w hw
    simp only [List.mem_cons, List.not_mem_nil, or_false] at hw
    rcases hw with rfl | rfl | rfl | rfl | rfl | rfl | rfl | rfl | rfl
    all_goals first | exact BitVec.isLt _ | exact address_toNat_lt userOp.sender
  have heq := Abi.words_inj (by simp) (hlt userOp) (hlt userOp') h
  simp only [List.cons.injEq, true_and, and_true] at heq
  obtain ⟨h1, h2, h3, h4, h5, h6, h7, h8⟩ := heq
  exact ⟨BitVec.eq_of_toNat_eq h1, BitVec.eq_of_toNat_eq h2, BitVec.eq_of_toNat_eq h3,
    BitVec.eq_of_toNat_eq h4, BitVec.eq_of_toNat_eq h5, BitVec.eq_of_toNat_eq h6,
    BitVec.eq_of_toNat_eq h7, BitVec.eq_of_toNat_eq h8⟩

/-- All that `getUserOpHash` hashes, the constant strings apart. -/
def hashed (cfg : Config) (chainid : Word) (this : Address) (userOp : PackedUserOperation) : List Bytes :=
  [userOp.initCode, userOp.callData, userOp.paymasterAndData,
    UserOperationLib.encode cfg.keccak256 userOp,
    EIP712.domain cfg.keccak256 (cfg.keccak256 DOMAIN_NAME) (cfg.keccak256 DOMAIN_VERSION) chainid this,
    MessageHashUtils.typedData cfg.domainSeparatorV4 (UserOperationLib.hash cfg.keccak256 userOp)]

/-- As long as no two of the strings that are hashed collide. -/
theorem getUserOpHash_commits {cfg' : Config} {chainid' : Word} {this' : Address}
    (h : cfg.UsesEIP712 chainid this) (h' : cfg'.UsesEIP712 chainid' this')
    (hkeccak256 : cfg'.keccak256 = cfg.keccak256) {userOp userOp' : PackedUserOperation}
    (hcollision : Set.InjOn cfg.keccak256
      {x | x ∈ hashed cfg chainid this userOp ++ hashed cfg' chainid' this' userOp'})
    (heq : getUserOpHash cfg userOp = getUserOpHash cfg' userOp')
    : userOp' = { userOp with signature := userOp'.signature } ∧ this' = this ∧ chainid' = chainid
        ∧ copyUserOpToMemory userOp' = copyUserOpToMemory userOp := by
  have hinj {x y : Bytes} (hx : x ∈ hashed cfg chainid this userOp)
      (hy : y ∈ hashed cfg' chainid' this' userOp') (hxy : cfg.keccak256 x = cfg.keccak256 y)
      : x = y :=
    hcollision (List.mem_append_left _ hx) (List.mem_append_right _ hy) hxy
  rw [h.getUserOpHash, h'.getUserOpHash, hkeccak256] at heq
  obtain ⟨hdomain, hstruct⟩ := typedData_inj
    (hinj (by simp [hashed]) (by simp [hashed, hkeccak256]) heq)
  rw [h.domainSeparatorV4, h'.domainSeparatorV4, hkeccak256] at hdomain
  obtain ⟨hchainid, hthis⟩ := domain_inj (hinj (by simp [hashed]) (by simp [hashed, hkeccak256]) hdomain)
  obtain ⟨hsender, hnonce, hinitCode, hcallData, hlimits, hgas, hfees, hpaymaster⟩ :=
    encode_inj (hinj (by simp [hashed]) (by simp [hashed, hkeccak256]) hstruct)
  have hsame : userOp' = { userOp with signature := userOp'.signature } := by
    rw [hsender, hnonce, hlimits, hgas, hfees,
      hinj (by simp [hashed]) (by simp [hashed]) hinitCode,
      hinj (by simp [hashed]) (by simp [hashed]) hcallData,
      hinj (by simp [hashed]) (by simp [hashed]) hpaymaster]
  refine ⟨hsame, hthis.symm, hchainid.symm, ?_⟩
  rw [hsame]
  rfl

def signedOp (signature : Bytes) : PackedUserOperation where
  sender := 3
  nonce := 2 ^ 64
  initCode := []
  callData := [0xde, 0xad]
  accountGasLimits := 1
  preVerificationGas := 21000
  gasFees := 1
  paymasterAndData := [1]
  signature

theorem getUserOpHash_commits_signedOp
    : copyUserOpToMemory (signedOp [1]) = copyUserOpToMemory (signedOp []) := by
  let cfg := openZeppelin 31337 1 2 fun _ => none
  have husesEIP712 : cfg.UsesEIP712 31337 1 := openZeppelin_usesEIP712
  have hnodup : ((hashed cfg 31337 1 (signedOp [])).map cfg.keccak256).Nodup := by
    decide +kernel
  have hcollision : Set.InjOn cfg.keccak256
      {x | x ∈ hashed cfg 31337 1 (signedOp []) ++ hashed cfg 31337 1 (signedOp [1])} := by
    have hsame : hashed cfg 31337 1 (signedOp [1]) = hashed cfg 31337 1 (signedOp []) := rfl
    rw [hsame]
    intro x hx y hy hxy
    simp only [Set.mem_ofPred_eq, List.mem_append, or_self] at hx hy
    exact List.inj_on_of_nodup_map hnodup hx hy hxy
  exact (getUserOpHash_commits husesEIP712 husesEIP712 rfl hcollision rfl).2.2.2

end EntryPoint
