import FalconSmartAccount.EntryPoint.UserOpHash

/-!
What the contract unpacks from an operation that the client packed: `_copyUserOpToMemory` and the
accessors of `UserOperationLib`.
-/

/-! ## UserOperationLib -/

/-- The slice `data[start : stop]` of calldata, which reverts past the end. -/
def calldataSlice (data : Bytes) (start stop : Nat) : Option Bytes :=
  if start ≤ stop ∧ stop ≤ data.length then some ((data.take stop).drop start) else none

namespace UserOperationLib

def gasPrice (basefee : Nat) (userOp : PackedUserOperation) : Nat :=
  let gasFees := unpackUints userOp.gasFees
  let maxPriorityFeePerGas := gasFees.1
  let maxFeePerGas := gasFees.2
  if maxFeePerGas = maxPriorityFeePerGas then
    maxFeePerGas
  else
    min maxFeePerGas (Yul.add maxPriorityFeePerGas basefee)

def unpackHigh128 (packed : Word) : Nat := packed.toNat >>> 128

def unpackLow128 (packed : Word) : Nat := packed.toNat % 2 ^ 128

def unpackMaxPriorityFeePerGas (userOp : PackedUserOperation) : Nat := unpackHigh128 userOp.gasFees

def unpackMaxFeePerGas (userOp : PackedUserOperation) : Nat := unpackLow128 userOp.gasFees

def unpackVerificationGasLimit (userOp : PackedUserOperation) : Nat :=
  unpackHigh128 userOp.accountGasLimits

def unpackCallGasLimit (userOp : PackedUserOperation) : Nat := unpackLow128 userOp.accountGasLimits

/-- `uint128(bytes16(data[start : stop]))`. -/
def unpackUint128 (data : Bytes) (start stop : Nat) : Option Nat := do
  return Abi.uintAt (← calldataSlice data start stop) 0 16

def unpackPaymasterVerificationGasLimit (userOp : PackedUserOperation) : Option Nat :=
  unpackUint128 userOp.paymasterAndData PAYMASTER_VALIDATION_GAS_OFFSET PAYMASTER_POSTOP_GAS_OFFSET

def unpackPostOpGasLimit (userOp : PackedUserOperation) : Option Nat :=
  unpackUint128 userOp.paymasterAndData PAYMASTER_POSTOP_GAS_OFFSET PAYMASTER_DATA_OFFSET

theorem unpackUint128_eq {data : Bytes} {start : Nat} (h : start + 16 ≤ data.length)
    : unpackUint128 data start (start + 16) = some (Abi.uintAt data start 16) := by
  have hread : Abi.uintAt ((data.take (start + 16)).drop start) 0 16 = Abi.uintAt data start 16 := by
    apply List.foldl_ext
    intro acc i hi
    have hi' : i < 16 := List.mem_range.mp hi
    simp [hi']
  unfold unpackUint128 calldataSlice
  rw [if_pos ⟨by omega, h⟩]
  simp [hread]

/-- The two halves of a packed word. -/
theorem unpackUints_packed {high low : Nat} (hhigh : high < 2 ^ 128) (hlow : low < 2 ^ 128)
    : unpackUints (BitVec.ofNat 256 (high * 2 ^ 128 + low)) = (high, low) := by
  have htoNat : (BitVec.ofNat 256 (high * 2 ^ 128 + low)).toNat = high * 2 ^ 128 + low := by
    rw [BitVec.toNat_ofNat]
    exact Nat.mod_eq_of_lt (Client.packed_lt hhigh hlow)
  have hdiv : (high * 2 ^ 128 + low) >>> 128 = high := by
    rw [Nat.shiftRight_eq_div_pow]
    omega
  have hmod : (high * 2 ^ 128 + low) % 2 ^ 128 = low := by omega
  unfold unpackUints
  rw [htoNat, hdiv, hmod]

section

variable {paymaster : Bytes} (hpaymaster : paymaster.length = 20) {gas postOpGas : Nat}
  (hgas : gas < 2 ^ 128) (hpostOpGas : postOpGas < 2 ^ 128) (paymasterData : Bytes)

include hpaymaster hgas hpostOpGas

/-- The three fixed fields of the packed paymaster data. -/
theorem unpackPaymasterStaticFields_packed
    : unpackPaymasterStaticFields
        (paymaster ++ Abi.uintBytes 16 gas ++ Abi.uintBytes 16 postOpGas ++ paymasterData)
          = (Abi.addressAt paymaster 0, gas, postOpGas) := by
  have hlength (v : Nat) : (Abi.uintBytes 16 v).length = 16 := by
    simp [Abi.uintBytes]
  have hread {v : Nat} (hv : v < 2 ^ 128) : Abi.uintAt (Abi.uintBytes 16 v) 0 16 = v := by
    rw [Abi.uintAt_uintBytes (by omega)]
    exact Nat.mod_eq_of_lt hv
  have haddress : Abi.uintAt
      (paymaster ++ Abi.uintBytes 16 gas ++ Abi.uintBytes 16 postOpGas ++ paymasterData) 0 20
        = Abi.uintAt paymaster 0 20 := by
    rw [List.append_assoc, List.append_assoc]
    exact Abi.uintAt_append_left (by omega) _
  have hfirst : Abi.uintAt
      (paymaster ++ Abi.uintBytes 16 gas ++ Abi.uintBytes 16 postOpGas ++ paymasterData) 20 16
        = gas := by
    rw [List.append_assoc, List.append_assoc]
    have hright := Abi.uintAt_append_right paymaster
      (Abi.uintBytes 16 gas ++ (Abi.uintBytes 16 postOpGas ++ paymasterData)) 0 16
    rw [hpaymaster] at hright
    rw [hright, Abi.uintAt_append_left (by rw [hlength]), hread hgas]
  have hsecond : Abi.uintAt
      (paymaster ++ Abi.uintBytes 16 gas ++ Abi.uintBytes 16 postOpGas ++ paymasterData) 36 16
        = postOpGas := by
    rw [List.append_assoc]
    have hright := Abi.uintAt_append_right (paymaster ++ Abi.uintBytes 16 gas)
      (Abi.uintBytes 16 postOpGas ++ paymasterData) 0 16
    rw [List.length_append, hpaymaster, hlength] at hright
    rw [hright, Abi.uintAt_append_left (by rw [hlength]), hread hpostOpGas]
  unfold unpackPaymasterStaticFields Abi.addressAt
  rw [haddress, PAYMASTER_VALIDATION_GAS_OFFSET, hfirst, PAYMASTER_POSTOP_GAS_OFFSET, hsecond]

end

/-- `getSender` reads the first member of the encoded operation. -/
theorem Raw.getSender_abiEncode (userOp : PackedUserOperation) (pre post : Bytes)
    : Raw.getSender (pre ++ userOp.abiEncode ++ post) pre.length = userOp.sender := by
  have haddress : userOp.sender.toNat < Yul.wordSize :=
    Nat.lt_of_lt_of_le userOp.sender.isLt (by norm_num [Yul.wordSize])
  have hassoc : pre ++ userOp.abiEncode ++ post
      = pre ++ (Abi.wordBytes userOp.sender.toNat ++ (userOp.abiEncode.drop 32 ++ post)) := by
    simp [PackedUserOperation.abiEncode, Abi.words_cons]
  have hleft : Abi.wordAt (Abi.wordBytes userOp.sender.toNat ++ (userOp.abiEncode.drop 32 ++ post)) 0
      = userOp.sender.toNat := by
    rw [Abi.wordAt_append_left (by simp), Abi.wordAt_wordBytes haddress]
  have hread := Abi.wordAt_append_right pre
    (Abi.wordBytes userOp.sender.toNat ++ (userOp.abiEncode.drop 32 ++ post)) 0
  rw [hleft, Nat.add_zero] at hread
  unfold Raw.getSender
  rw [hassoc, hread, BitVec.ofNat_toNat, BitVec.setWidth_eq]

end UserOperationLib

/-! ## The copy in memory -/

namespace Client.UserOperation

/-- A paymaster that is given is a hex string of 20 bytes. -/
def PaymasterAddress (op : UserOperation) : Prop := ∀ paymaster ∈ op.paymaster, paymaster.length = 20

/-- The zero address stands for no paymaster. -/
def setPaymaster (op : UserOperation) : Option Bytes := op.paymaster.filter (· ≠ AddressZero)

theorem payer_eq {op : UserOperation} (h : op.PaymasterAddress) : op.payer = op.setPaymaster := by
  unfold payer setPaymaster
  cases hpaymaster : op.paymaster with
  | none => rfl
  | some paymaster =>
    have hlength : paymaster.length = 20 := h paymaster hpaymaster
    simp [Option.filter_some, hlength]

end Client.UserOperation

/-- The operation as the entry point keeps it: the paymaster fields are zero without a paymaster. -/
def toMemory (op : Client.UserOperation) : MemoryUserOp where
  sender := op.sender
  nonce := BitVec.ofNat 256 op.nonce
  verificationGasLimit := op.verificationGasLimit
  callGasLimit := op.callGasLimit
  paymasterVerificationGasLimit := (op.setPaymaster.map fun _ => op.paymasterVerificationGasLimit).getD 0
  paymasterPostOpGasLimit := (op.setPaymaster.map fun _ => op.paymasterPostOpGasLimit).getD 0
  preVerificationGas := op.preVerificationGas
  paymaster := (op.setPaymaster.map fun paymaster => Abi.addressAt paymaster 0).getD 0
  maxFeePerGas := op.maxFeePerGas
  maxPriorityFeePerGas := op.maxPriorityFeePerGas

namespace EntryPoint

theorem copyUserOpToMemory_short {userOp : PackedUserOperation}
    (hpos : 0 < userOp.paymasterAndData.length) (hshort : userOp.paymasterAndData.length < 52)
    : copyUserOpToMemory userOp = none := by
  unfold copyUserOpToMemory
  dsimp only
  rw [if_neg (by omega), if_pos (by exact hshort)]

section

variable {op : Client.UserOperation} (hop : op.InRange)

include hop

theorem unpackUints_toContract
    : UserOperationLib.unpackUints (toContract op).accountGasLimits
          = (op.verificationGasLimit, op.callGasLimit)
        ∧ UserOperationLib.unpackUints (toContract op).gasFees
          = (op.maxPriorityFeePerGas, op.maxFeePerGas) :=
  ⟨UserOperationLib.unpackUints_packed hop.verificationGasLimit hop.callGasLimit,
    UserOperationLib.unpackUints_packed hop.maxPriorityFeePerGas hop.maxFeePerGas⟩

theorem gasPrice_toContract (basefee : Nat)
    : UserOperationLib.gasPrice basefee (toContract op) = getUserOpGasPrice basefee (toMemory op) := by
  unfold UserOperationLib.gasPrice
  rw [(unpackUints_toContract hop).2]
  rfl

variable (hpaymaster : op.PaymasterAddress)

include hpaymaster

/-- The packed paymaster data is empty or holds the address and both limits. -/
theorem paymasterAndData_cases
    : (op.setPaymaster = none ∧ op.paymasterAndData = [])
        ∨ ∃ paymaster, op.setPaymaster = some paymaster ∧ 52 ≤ op.paymasterAndData.length
          ∧ UserOperationLib.unpackPaymasterStaticFields op.paymasterAndData
            = (Abi.addressAt paymaster 0, op.paymasterVerificationGasLimit,
              op.paymasterPostOpGasLimit) := by
  unfold Client.UserOperation.paymasterAndData
  rw [Client.UserOperation.payer_eq hpaymaster]
  cases hset : op.setPaymaster with
  | none => exact Or.inl ⟨rfl, rfl⟩
  | some paymaster =>
    have hmem : op.paymaster = some paymaster := (Option.filter_eq_some_iff.mp hset).1
    have hlength : paymaster.length = 20 := hpaymaster paymaster hmem
    have hfields := UserOperationLib.unpackPaymasterStaticFields_packed hlength
      hop.paymasterVerificationGasLimit hop.paymasterPostOpGasLimit op.paymasterData
    refine Or.inr ⟨paymaster, rfl, ?_, hfields⟩
    simp [Abi.uintBytes, hlength]
    omega

theorem copyUserOpToMemory_toContract : copyUserOpToMemory (toContract op) = some (toMemory op) := by
  have hgas : (BitVec.ofNat 256 op.preVerificationGas).toNat = op.preVerificationGas := by
    rw [BitVec.toNat_ofNat]
    exact Nat.mod_eq_of_lt hop.preVerificationGas
  have hdata : (toContract op).paymasterAndData = op.paymasterAndData := rfl
  have hgas' : (toContract op).preVerificationGas.toNat = op.preVerificationGas := hgas
  unfold copyUserOpToMemory toMemory
  dsimp only
  rw [(unpackUints_toContract hop).1, (unpackUints_toContract hop).2, hgas', hdata]
  obtain ⟨hset, hempty⟩ | ⟨paymaster, hset, hlong, hfields⟩ := paymasterAndData_cases hop hpaymaster
  . rw [if_pos (by rw [hempty]; rfl), hset]
    rfl
  . rw [if_neg (by omega), if_neg (by exact Nat.not_lt.mpr hlong), hfields, hset]
    rfl

/-- Without a paymaster there is nothing to slice. -/
theorem unpackPaymasterLimits_toContract
    : UserOperationLib.unpackPaymasterVerificationGasLimit (toContract op)
          = (op.setPaymaster.map fun _ => op.paymasterVerificationGasLimit)
        ∧ UserOperationLib.unpackPostOpGasLimit (toContract op)
          = (op.setPaymaster.map fun _ => op.paymasterPostOpGasLimit) := by
  have hdata : (toContract op).paymasterAndData = op.paymasterAndData := rfl
  unfold UserOperationLib.unpackPaymasterVerificationGasLimit UserOperationLib.unpackPostOpGasLimit
  rw [hdata]
  obtain ⟨hset, hempty⟩ | ⟨paymaster, hset, hlong, hfields⟩ := paymasterAndData_cases hop hpaymaster
  . rw [hset, hempty]
    exact ⟨rfl, rfl⟩
  . have hfirst := congrArg (fun fields => fields.2.1) hfields
    have hsecond := congrArg (fun fields => fields.2.2) hfields
    rw [hset]
    constructor
    . have hle : 20 + 16 ≤ op.paymasterAndData.length := by omega
      exact (UserOperationLib.unpackUint128_eq hle).trans (congrArg some hfirst)
    . have hle : 36 + 16 ≤ op.paymasterAndData.length := by omega
      exact (UserOperationLib.unpackUint128_eq hle).trans (congrArg some hsecond)

end

/-- What the contract unpacks is what the client packed. -/
theorem unpacks_packUserOp [Ethers] [LawfulEthers]
    : (∀ op : Client.UserOperation, op.InRange → op.PaymasterAddress →
          ∃ packed userOp, Client.packUserOp op = some packed ∧ abiArgument packed = some userOp
            ∧ copyUserOpToMemory userOp = some (toMemory op)
            ∧ (∀ pre post : Bytes,
              UserOperationLib.Raw.getSender (pre ++ userOp.abiEncode ++ post) pre.length = op.sender)
            ∧ UserOperationLib.unpackVerificationGasLimit userOp = op.verificationGasLimit
            ∧ UserOperationLib.unpackCallGasLimit userOp = op.callGasLimit
            ∧ UserOperationLib.unpackMaxFeePerGas userOp = op.maxFeePerGas
            ∧ UserOperationLib.unpackMaxPriorityFeePerGas userOp = op.maxPriorityFeePerGas
            ∧ UserOperationLib.unpackPaymasterVerificationGasLimit userOp
              = (op.setPaymaster.map fun _ => op.paymasterVerificationGasLimit)
            ∧ UserOperationLib.unpackPostOpGasLimit userOp
              = (op.setPaymaster.map fun _ => op.paymasterPostOpGasLimit)
            ∧ ∀ basefee, UserOperationLib.gasPrice basefee userOp
              = getUserOpGasPrice basefee (toMemory op))
        ∧ ∀ userOp : PackedUserOperation, 0 < userOp.paymasterAndData.length →
          userOp.paymasterAndData.length < 52 → copyUserOpToMemory userOp = none := by
  constructor
  . intro op hop hpaymaster
    obtain ⟨packed, hpacked, hargument⟩ := abiArgument_packUserOp hop
    obtain ⟨hlimits, hfees⟩ := unpackUints_toContract hop
    obtain ⟨hverification, hpostOp⟩ := unpackPaymasterLimits_toContract hop hpaymaster
    refine ⟨packed, toContract op, hpacked, hargument, ?_, ?_, ?_, ?_, ?_, ?_, hverification, hpostOp, ?_⟩
    . exact copyUserOpToMemory_toContract hop hpaymaster
    . exact UserOperationLib.Raw.getSender_abiEncode (toContract op)
    . exact congrArg Prod.fst hlimits
    . exact congrArg Prod.snd hlimits
    . exact congrArg Prod.snd hfees
    . exact congrArg Prod.fst hfees
    . exact gasPrice_toContract hop
  . intro userOp hpos hshort
    exact copyUserOpToMemory_short hpos hshort

theorem unpacks_packUserOp_sponsored
    : let _ := Ethers.sample
      ∃ packed userOp, Client.packUserOp sponsoredOp = some packed ∧ abiArgument packed = some userOp
        ∧ copyUserOpToMemory userOp = some (toMemory sponsoredOp)
        ∧ UserOperationLib.unpackMaxFeePerGas userOp = 2000000000
        ∧ UserOperationLib.unpackPaymasterVerificationGasLimit userOp = some 300000
        ∧ copyUserOpToMemory (signedOp []) = none := by
  intro ethers
  have hlawful : LawfulEthers := Ethers.sample_lawful
  have hpaymaster : sponsoredOp.PaymasterAddress := by
    intro paymaster hmem
    cases hmem
    rfl
  obtain ⟨hall, hshort⟩ := unpacks_packUserOp
  obtain ⟨packed, userOp, hpacked, hargument, hcopy, _, _, _, hfee, _, hlimit, _⟩ :=
    hall sponsoredOp sponsoredOp_inRange hpaymaster
  exact ⟨packed, userOp, hpacked, hargument, hcopy, hfee, hlimit, hshort _ (by decide) (by decide)⟩

/-- Without a paymaster the copy has zero limits, but the accessors revert. -/
theorem unpackPaymasterLimits_unsponsored
    : let _ := Ethers.sample
      ∃ (op : Client.UserOperation) (packed : Client.PackedUserOperation) (userOp : PackedUserOperation),
        op.InRange ∧ op.paymaster = none
          ∧ Client.packUserOp op = some packed ∧ abiArgument packed = some userOp
          ∧ copyUserOpToMemory userOp = some (toMemory op)
          ∧ (toMemory op).paymasterVerificationGasLimit = 0
          ∧ UserOperationLib.unpackPaymasterVerificationGasLimit userOp = none
          ∧ UserOperationLib.unpackPostOpGasLimit userOp = none := by
  intro ethers
  have hlawful : LawfulEthers := Ethers.sample_lawful
  have hop : Client.UserOperation.InRange { sponsoredOp with paymaster := none } := by
    constructor <;> decide
  have hpaymaster : Client.UserOperation.PaymasterAddress { sponsoredOp with paymaster := none } := by
    intro paymaster hmem
    cases hmem
  obtain ⟨packed, hpacked, hargument⟩ := abiArgument_packUserOp hop
  obtain ⟨hverification, hpostOp⟩ := unpackPaymasterLimits_toContract hop hpaymaster
  exact ⟨_, packed, _, hop, rfl, hpacked, hargument, copyUserOpToMemory_toContract hop hpaymaster, rfl,
    hverification, hpostOp⟩

end EntryPoint
