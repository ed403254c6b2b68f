import FalconSmartAccount.EntryPoint.Invariant

/-!
The functions of the entry point keep its invariant, whatever the contracts do that they call.
-/

open Evm

namespace EntryPoint

/-- The entry point reverts on the message. -/
def Refused (cfg : Config) (message : Message) : Prop :=
  ∀ msg : Frame Message, msg.message = message → dispatch cfg msg = .revert default

section

variable (cfg : Config)

theorem refused_validateUserOp {userOp : PackedUserOperation} {userOpHash : Word} {missing : Nat}
    : Refused cfg (.validateUserOp userOp userOpHash missing) := by
  intro msg h
  unfold dispatch
  rw [h]
  rfl

theorem refused_validatePaymasterUserOp {userOp : PackedUserOperation} {userOpHash : Word}
    {maxCost : Nat}
    : Refused cfg (.validatePaymasterUserOp userOp userOpHash maxCost) := by
  intro msg h
  unfold dispatch
  rw [h]
  rfl

theorem refused_postOp {mode : PostOpMode} {context : Bytes} {cost price : Nat}
    : Refused cfg (.postOp mode context cost price) := by
  intro msg h
  unfold dispatch
  rw [h]
  rfl

theorem refused_validateSignatures {userOps : List PackedUserOperation} {signature : Bytes}
    : Refused cfg (.validateSignatures userOps signature) := by
  intro msg h
  unfold dispatch
  rw [h]
  rfl

end

end EntryPoint

namespace Deployment

open EntryPoint

variable {X : Type} (d : Deployment X)

/-- If the entry point calls itself, then only to receive currency or to be refused. -/
def Foreign (target : Address) (message : Message) : Prop :=
  target = d.entryPoint → message = .bytes [] ∨ Refused d.cfg message

/-- What the entry point relies on when it calls. -/
structure Handles (inv : Frame Message → State (Chain X) → Reply (Chain X) Message ReturnData Log)
    : Prop where
  failed (frame : Frame Message) (s : State (Chain X)) (h : (inv frame s).ok = false)
    : (inv frame s).state.world = s.world
  refused (frame : Frame Message) (s : State (Chain X)) (hself : frame.self = d.entryPoint)
    (hmessage : Refused d.cfg frame.message)
    : (inv frame s).ok = false
  foreign (frame : Frame Message) (s : State (Chain X)) {used : List (Address × Word)}
    {locked collected : Nat}
    (hframe : frame.caller = d.entryPoint → d.Foreign frame.self frame.message)
    (hholds : d.Holds used (if frame.caller = d.entryPoint then frame.value else 0) locked collected s.world)
    : (∀ w, Outside w (inv frame s).body → d.Safe w)
        ∧ d.Holds used 0 locked collected (inv frame s).state.world
  inner (s : State (Chain X)) {used : List (Address × Word)}
    {locked collected : Nat} (callData : CallData) (opInfo : UserOpInfo)
    (context : Bytes) (env : Env) (hsender : opInfo.mUserOp.sender ≠ d.entryPoint)
    (hholds : d.Holds used 0 (locked + opInfo.prefund) collected s.world)
    : let r := inv ⟨d.entryPoint, d.entryPoint, 0, .innerHandleOp callData opInfo context, env⟩ s
      (∀ w, Outside w r.body → d.Safe w)
        ∧ (r.ok = true → ∃ cost, r.data = .words [cost] ∧ d.Holds used 0 locked (collected + cost) r.state.world)

/-- From a world with `P` the program of the entry point only passes safe worlds, and if it returns
then with `Q`. -/
abbrev Keeps (inv : Frame Message → State (Chain X) → Reply (Chain X) Message ReturnData Log)
    (msg : Frame Message) {α : Type} (P : World (Chain X) → Prop) (p : EntryPoint.Code α)
    (Q : α → World (Chain X) → Prop) : Prop :=
  Sat d.system inv msg Chain.entryPointPart d.Safe P p Q

variable {d} {inv : Frame Message → State (Chain X) → Reply (Chain X) Message ReturnData Log}
  {msg : Frame Message} {α β : Type} {P : World (Chain X) → Prop} {used : List (Address × Word)}
  {k locked collected : Nat}

namespace Keeps

theorem lift {c : Checked α} : d.Keeps inv msg P (EntryPoint.lift c) fun a w => P w ∧ c = .ok a := by
  cases c with
  | ok a => exact Sat.ret fun w hw => ⟨hw, rfl⟩
  | error e => exact Sat.revert

theorem bind_lift {c : Checked α} {f : α → EntryPoint.Code β} {U : β → World (Chain X) → Prop}
    (h : ∀ a, c = .ok a → d.Keeps inv msg P (f a) U)
    : d.Keeps inv msg P (EntryPoint.lift c >>= f) U := by
  cases c with
  | ok a => exact h a rfl
  | error e => exact Sat.bind_revert

theorem bind_getOrRevert {data : ReturnData} {o : Option α} {f : α → EntryPoint.Code β}
    {U : β → World (Chain X) → Prop} (h : ∀ a, o = some a → d.Keeps inv msg P (f a) U)
    : d.Keeps inv msg P (getOrRevert data o >>= f) U := by
  cases o with
  | some a => exact h a rfl
  | none => exact Sat.bind_revert

theorem bind_sload {f : Storage → EntryPoint.Code β} {U : β → World (Chain X) → Prop}
    (h : ∀ s, d.Keeps inv msg (fun w => P w ∧ s = w.storage.entryPoint) (f s) U)
    : d.Keeps inv msg P (Prog.sload >>= f) U :=
  Sat.bind_sload h

/-- A write after which the invariant holds. -/
theorem bind_sstore {f : Storage → Storage} {g : Unit → EntryPoint.Code β}
    {U : β → World (Chain X) → Prop} (used' : List (Address × Word))
    (k' locked' collected' : Nat)
    (hf : ∀ w, P w → d.Holds used' k' locked' collected' (w.write Chain.entryPointPart f))
    (h : d.Keeps inv msg (d.Holds used' k' locked' collected') (g ()) U)
    : d.Keeps inv msg P (Prog.sstore f >>= g) U :=
  Sat.bind_sstore (fun w hw => ⟨(hf w hw).safe, hf w hw⟩) h

theorem bind_balanceOf {account : Address} {f : Nat → EntryPoint.Code β}
    {U : β → World (Chain X) → Prop}
    (h : ∀ n, d.Keeps inv msg (fun w => P w ∧ n = (w.storage.entryPoint.deposits account).deposit)
      (f n) U)
    : d.Keeps inv msg P (balanceOf account >>= f) U := by
  change d.Keeps inv msg P (Prog.sload >>= fun s => f (s.deposits account).deposit) U
  refine bind_sload fun s => (h (s.deposits account).deposit).mono ?_ fun _ _ hu => hu
  rintro w ⟨hw, rfl⟩
  exact ⟨hw, rfl⟩

theorem bind_call (hinv : d.Handles inv) (hmsg : msg.self = d.entryPoint) {c : Call Message}
    {f : Bool × ReturnData → EntryPoint.Code β} {U : β → World (Chain X) → Prop}
    (hP : ∀ w, P w → d.Holds used c.value locked collected w) (hc : d.Foreign c.target c.message)
    (h : ∀ success ret, (success = true → Refused d.cfg c.message → c.target ≠ d.entryPoint) →
      d.Keeps inv msg (d.Holds used 0 locked collected) (f (success, ret)) U)
    : d.Keeps inv msg P (Prog.call c >>= f) U := by
  refine Sat.bind (Q := fun r w => d.Holds used 0 locked collected w
    ∧ (r.1 = true → Refused d.cfg c.message → c.target ≠ d.entryPoint)) (Sat.call ?_) ?_
  . intro s hs
    let frame : Frame Message := ⟨c.target, msg.self, c.value, c.message, msg.env⟩
    have hholds : d.Holds used (if frame.caller = d.entryPoint then frame.value else 0) locked collected
        s.world := by
      rw [if_pos hmsg]
      exact hP _ hs
    obtain ⟨hvisited, hafter⟩ := hinv.foreign frame s (fun _ => hc) hholds
    refine ⟨hvisited, hafter.safe, hafter, ?_⟩
    intro hok hrefused hself
    rw [hinv.refused frame s hself hrefused] at hok
    cases hok
  . rintro ⟨success, ret⟩ s ⟨hs, hsuccess⟩
    exact h success ret hsuccess s hs

end Keeps

/-! ## StakeManager and NonceManager -/

theorem incrementDeposit_keeps {account : Address} {amount : Nat} {f : Books → Books}
    {k' locked' collected' : Nat}
    (hf : ∀ b : Books, b.locked = locked → b.collected = collected →
      (f b).locked = locked' ∧ (f b).collected = collected' ∧ (f b).accepted = b.accepted)
    (hle : amount + locked' + collected' + k' ≤ locked + collected + k)
    : d.Keeps inv msg (d.Holds used k locked collected) (incrementDeposit account amount f)
        fun _ => d.Holds used k' locked' collected' := by
  refine Keeps.bind_sload fun s => Keeps.bind_lift fun newAmount hnew => ?_
  refine Keeps.bind_sstore used k' locked' collected' ?_ (Sat.ret fun _ h => h)
  rintro w ⟨h, rfl⟩
  obtain ⟨h1, h2, h3⟩ := hf w.storage.entryPoint.books h.locked h.collected
  have howed := w.storage.entryPoint.owed_setDeposit account newAmount
  have := Solidity.eq_of_add hnew
  refine h.writeDeposits ?_ h1 h2 h3 rfl
  rw [Storage.owed_note]
  omega

theorem depositTo_keeps {account : Address}
    : d.Keeps inv msg (d.Holds used msg.value locked collected) (depositTo msg account)
        fun _ => d.Holds used 0 locked collected :=
  Sat.bind (incrementDeposit_keeps (fun _ hl hc => ⟨hl, hc, rfl⟩) (by omega))
    fun _ => Sat.bind_emit (Sat.ret fun _ h => h)

theorem addStake_keeps {unstakeDelaySec : BitVec 32}
    : d.Keeps inv msg (d.Holds used msg.value locked collected) (addStake msg unstakeDelaySec)
        fun _ => d.Holds used 0 locked collected := by
  refine Keeps.bind_sload fun s => Sat.bind_require fun _ => Sat.bind_require fun _ => ?_
  refine Keeps.bind_lift fun stake hstake => Sat.bind_require fun _ => Sat.bind_require fun _ => ?_
  refine Keeps.bind_sstore used 0 locked collected ?_ (Sat.bind_emit (Sat.ret fun _ h => h))
  rintro w ⟨h, rfl⟩
  refine h.writeDeposits ?_ h.locked h.collected rfl rfl
  have howed := w.storage.entryPoint.owed_setInfo msg.caller
    { deposit := (w.storage.entryPoint.deposits msg.caller).deposit
      staked := true
      stake := stake
      unstakeDelaySec := unstakeDelaySec.toNat
      withdrawTime := 0 }
  have := Solidity.eq_of_add hstake
  dsimp only at howed
  omega

theorem unlockStake_keeps
    : d.Keeps inv msg (d.Holds used 0 locked collected) (unlockStake msg)
        fun _ => d.Holds used 0 locked collected := by
  refine Keeps.bind_sload fun s => Sat.bind_require fun _ => Sat.bind_require fun _ => ?_
  refine Keeps.bind_lift fun withdrawTime _ => ?_
  refine Keeps.bind_sstore used 0 locked collected ?_ (Sat.bind_emit (Sat.ret fun _ h => h))
  rintro w ⟨h, rfl⟩
  refine h.writeDeposits ?_ h.locked h.collected rfl rfl
  have howed := w.storage.entryPoint.owed_setInfo msg.caller
    { w.storage.entryPoint.deposits msg.caller with withdrawTime := withdrawTime, staked := false }
  dsimp only at howed ⊢
  omega

theorem incrementNonce_keeps {key : BitVec 192}
    : d.Keeps inv msg (d.Holds used 0 locked collected) (incrementNonce msg key)
        fun _ => d.Holds used 0 locked collected := by
  refine Keeps.bind_sload fun s => Keeps.bind_lift fun next hnext => ?_
  refine Keeps.bind_sstore used 0 locked collected ?_ (Sat.ret fun _ h => h)
  rintro w ⟨h, rfl⟩
  rw [Solidity.eq_of_add hnext]
  exact h.write (Nat.le_of_eq (by rw [Storage.owed_setNonce])) h.locked h.collected
    (fun hfresh => hfresh.setNonce_succ _ _) h.used

theorem validateAndUpdateNonce_keeps {sender : Address} {nonce : Word}
    : d.Keeps inv msg (d.Holds used 0 locked collected) (validateAndUpdateNonce sender nonce)
        fun ok => d.Holds (if ok then used ++ [(sender, nonce)] else used) 0 locked collected := by
  refine Keeps.bind_sload fun s => Keeps.bind_lift fun next hnext => ?_
  refine Keeps.bind_sstore _ 0 locked collected ?_ (Sat.ret fun _ h => h)
  rintro w ⟨h, rfl⟩
  rw [Solidity.eq_of_add hnext]
  split
  . next hseq =>
    rw [beq_iff_eq] at hseq
    rw [if_pos hseq]
    refine h.write (Nat.le_of_eq ?_) h.locked h.collected (fun hfresh => hfresh.accept hseq)
      (h.used.append_right [(sender, nonce)])
    rw [Storage.owed_note, Storage.owed_setNonce]
  . next hseq =>
    rw [beq_iff_eq] at hseq
    rw [if_neg hseq]
    refine h.write (Nat.le_of_eq ?_) h.locked h.collected
      (fun hfresh => (hfresh.setNonce_succ _ _).congr rfl rfl) h.used
    rw [Storage.owed_note, Storage.owed_setNonce]

theorem requireCode_keeps {target : Address}
    : d.Keeps inv msg P (requireCode target) fun _ => P :=
  Sat.bind_codeLength fun _ => Sat.require fun _ _ h => h

/-! ## Validation -/

theorem missingAccountFunds_keeps {mUserOp : MemoryUserOp} {requiredPrefund : Nat}
    : d.Keeps inv msg P (missingAccountFunds mUserOp requiredPrefund) fun _ => P := by
  unfold missingAccountFunds
  split
  . exact Keeps.bind_balanceOf fun n => Sat.ret fun _ h => h.1
  . exact Sat.ret fun _ h => h

/-- Taking the prefund from a deposit that covers it. -/
theorem Holds.lockPrefund {w : World (Chain X)} {account : Address} {prefund : Nat}
    (h : d.Holds used 0 locked collected w)
    (hle : prefund ≤ (w.storage.entryPoint.deposits account).deposit)
    : d.Holds used 0 (locked + prefund) collected (w.write Chain.entryPointPart fun s =>
        (s.setDeposit account ((w.storage.entryPoint.deposits account).deposit - prefund)).note
          (Books.lock prefund)) := by
  have howed := w.storage.entryPoint.owed_setDeposit account
    ((w.storage.entryPoint.deposits account).deposit - prefund)
  refine h.writeDeposits ?_ (congrArg (· + prefund) h.locked) h.collected rfl rfl
  rw [Storage.owed_note]
  omega

theorem deductAccountPrefund_keeps {opIndex : Nat} {mUserOp : MemoryUserOp} {requiredPrefund : Nat}
    : d.Keeps inv msg (d.Holds used 0 locked collected)
        (deductAccountPrefund opIndex mUserOp requiredPrefund) fun _ =>
          d.Holds used 0 (if mUserOp.paymaster = 0 then locked + requiredPrefund else locked) collected := by
  unfold deductAccountPrefund
  split
  . refine Keeps.bind_balanceOf fun deposit => Sat.bind_require fun hle => Sat.sstore ?_
    rintro w ⟨h, rfl⟩
    have := h.lockPrefund (of_decide_eq_true hle)
    exact ⟨this.safe, this⟩
  . exact Sat.ret fun _ h => h

theorem validateValidationData_keeps {opIndex validationData paymasterValidationData : Nat}
    {expectedAggregator : Address}
    : d.Keeps inv msg P (validateAccountAndPaymasterValidationData msg opIndex validationData
        paymasterValidationData expectedAggregator) fun _ => P :=
  Sat.bind_require fun _ => Sat.bind_require fun _ => Sat.bind_require fun _ =>
    Sat.require fun _ _ h => h

section

variable (hinv : d.Handles inv) (hmsg : msg.self = d.entryPoint)

include hinv hmsg

theorem withdrawStake_keeps {withdrawAddress : Address}
    : d.Keeps inv msg (d.Holds used 0 locked collected) (withdrawStake msg withdrawAddress)
        fun _ => d.Holds used 0 locked collected := by
  refine Keeps.bind_sload fun s => Sat.bind_require fun _ => Sat.bind_require fun _ => ?_
  refine Sat.bind_require fun _ => Keeps.bind_sstore used _ locked collected ?_ (Sat.bind_emit
    (Keeps.bind_call hinv hmsg (fun _ h => h) (fun _ => .inl rfl) fun success ret _ => Sat.bind_require fun _ =>
      Sat.ret fun _ h => h))
  rintro w ⟨h, rfl⟩
  refine h.writeDeposits ?_ h.locked h.collected rfl rfl
  have howed := w.storage.entryPoint.owed_setInfo msg.caller
    { w.storage.entryPoint.deposits msg.caller with unstakeDelaySec := 0, withdrawTime := 0, stake := 0 }
  dsimp only at howed ⊢
  omega

theorem withdrawTo_keeps {withdrawAddress : Address} {withdrawAmount : Nat}
    : d.Keeps inv msg (d.Holds used 0 locked collected) (withdrawTo msg withdrawAddress withdrawAmount)
        fun _ => d.Holds used 0 locked collected := by
  refine Keeps.bind_sload fun s => Sat.bind_require fun hle => Keeps.bind_sstore used withdrawAmount locked collected ?_ (Sat.bind_emit
    (Keeps.bind_call hinv hmsg (fun _ h => h) (fun _ => .inl rfl) fun success ret _ => Sat.bind_require fun _ =>
      Sat.ret fun _ h => h))
  rintro w ⟨h, rfl⟩
  refine h.writeDeposits ?_ h.locked h.collected rfl rfl
  have howed := w.storage.entryPoint.owed_setDeposit msg.caller
    ((w.storage.entryPoint.deposits msg.caller).deposit - withdrawAmount)
  have := of_decide_eq_true hle
  omega

theorem createSenderIfNeeded_keeps {opIndex : Nat} {opInfo : UserOpInfo} {initCode : Bytes}
    : d.Keeps inv msg (d.Holds used 0 locked collected)
        (createSenderIfNeeded d.cfg opIndex opInfo initCode) fun _ => d.Holds used 0 locked collected := by
  unfold createSenderIfNeeded
  split
  . exact Sat.ret fun _ h => h
  . refine Sat.bind_codeLength fun _ => Sat.bind_require fun _ => ?_
    refine Keeps.bind_call hinv hmsg (fun _ h => h) ?_ fun success ret _ => ?_
    . exact fun h => absurd h d.entryPoint_ne.symm
    refine Sat.bind_require fun _ => Keeps.bind_getOrRevert fun sender1 _ => ?_
    refine Sat.bind_require fun _ => Sat.bind_require fun _ => Sat.bind_codeLength fun _ => ?_
    exact Sat.bind_require fun _ => Sat.emit

theorem validateAccountPrepayment_keeps {opIndex : Nat} {op : PackedUserOperation}
    {opInfo : UserOpInfo} {requiredPrefund verificationGasLimit : Nat}
    : d.Keeps inv msg (d.Holds used 0 locked collected)
        (validateAccountPrepayment d.cfg opIndex op opInfo requiredPrefund verificationGasLimit)
        fun _ w => opInfo.mUserOp.sender ≠ d.entryPoint
          ∧ d.Holds used 0 (if opInfo.mUserOp.paymaster = 0 then locked + requiredPrefund else locked)
              collected w := by
  have hrefused (missing : Nat)
      : Refused d.cfg (.validateUserOp op opInfo.userOpHash missing) :=
    refused_validateUserOp d.cfg
  refine Sat.bind (createSenderIfNeeded_keeps hinv hmsg) fun _ => ?_
  refine Sat.bind missingAccountFunds_keeps fun missing => ?_
  refine Keeps.bind_call hinv hmsg (fun _ h => h) ?_ fun success ret hsender => ?_
  . exact fun _ => .inr (hrefused missing)
  refine Sat.bind_require fun hsuccess => Keeps.bind_getOrRevert fun validationData _ => ?_
  refine Sat.bind deductAccountPrefund_keeps fun _ => Sat.ret fun w hw => ?_
  exact ⟨hsender hsuccess (hrefused missing), hw⟩

theorem validatePaymasterPrepayment_keeps {opIndex : Nat} {op : PackedUserOperation}
    {opInfo : UserOpInfo} {requiredPreFund : Nat}
    : d.Keeps inv msg (d.Holds used 0 locked collected)
        (validatePaymasterPrepayment opIndex op opInfo requiredPreFund)
        fun _ => d.Holds used 0 (locked + requiredPreFund) collected := by
  refine Sat.bind_gasleft fun preGas => Keeps.bind_balanceOf fun deposit => ?_
  refine Sat.bind_require fun hle => Keeps.bind_sstore used 0 (locked + requiredPreFund) collected ?_
    (Keeps.bind_call hinv hmsg (fun _ h => h) ?_ fun success ret _ => ?_)
  . rintro w ⟨h, rfl⟩
    exact h.lockPrefund (of_decide_eq_true hle)
  . exact fun _ => .inr (refused_validatePaymasterUserOp d.cfg)
  . refine Sat.bind_require fun _ => Keeps.bind_getOrRevert fun r _ => Sat.bind_gasleft fun _ => ?_
    exact Keeps.bind_lift fun _ _ => Sat.bind_require fun _ => Sat.ret fun _ h => h

/-- The prefund that is returned is locked, and the nonce has been accepted. -/
theorem validatePrepayment_keeps {opIndex : Nat} {userOp : PackedUserOperation}
    {outOpInfo : UserOpInfo}
    : d.Keeps inv msg (d.Holds used 0 locked collected)
        (validatePrepayment d.cfg opIndex userOp outOpInfo)
        fun r w => r.1.mUserOp.sender ≠ d.entryPoint
          ∧ d.Holds (used ++ [(userOp.sender, userOp.nonce)]) 0 (locked + r.1.prefund) collected w := by
  refine Sat.bind_gasleft fun preGas => Keeps.bind_getOrRevert fun mUserOp hcopy => ?_
  obtain ⟨hcopysender, hcopynonce⟩ := copyUserOpToMemory_eq hcopy
  refine Sat.bind_require fun _ => Sat.bind (validateAccountPrepayment_keeps hinv hmsg) ?_
  intro validationData
  refine Sat.of_and fun hsender => Sat.bind validateAndUpdateNonce_keeps fun ok => ?_
  refine Sat.bind_require fun hok => Sat.bind_gasleft fun _ => Keeps.bind_lift fun _ _ => ?_
  refine Sat.bind_require fun _ => ?_
  rw [if_pos hok, ← hcopysender, ← hcopynonce]
  refine Sat.bind (Q := fun _ => d.Holds (used ++ [(mUserOp.sender, mUserOp.nonce)]) 0
    (locked + getRequiredPrefund mUserOp) collected) ?_ ?_
  . dsimp only
    split
    . exact Sat.ret fun w hw => hw
    . exact validatePaymasterPrepayment_keeps hinv hmsg
  . intro r
    exact Sat.bind_gasleft fun _ => Sat.ret fun w hw => ⟨hsender, hw⟩

/-! ## Execution -/

omit hinv hmsg in
theorem chargePrefund_keeps {opInfo : UserOpInfo} {actualGas : Nat}
    : d.Keeps inv msg (d.Holds used 0 (locked + opInfo.prefund) collected) (chargePrefund opInfo actualGas)
        fun cost w => d.Holds used 0 locked (collected + cost) w := by
  refine Keeps.bind_sstore used 0 locked (collected + opInfo.prefund) ?_
    (Sat.bind_emit (Sat.bind_emit (Sat.ret fun _ h => h)))
  intro w h
  refine h.writeDeposits ?_ ?_ (congrArg (· + opInfo.prefund) h.collected) rfl rfl
  . rw [Storage.owed_note]
    omega
  . change w.storage.entryPoint.books.locked - opInfo.prefund = locked
    rw [h.locked, Nat.add_sub_cancel]

theorem callPostOp_keeps {mode : PostOpMode} {mUserOp : MemoryUserOp} {context : Bytes}
    {actualGasCost gasPrice : Nat}
    : d.Keeps inv msg (d.Holds used 0 locked collected)
        (callPostOp mode mUserOp context actualGasCost gasPrice) fun _ => d.Holds used 0 locked collected := by
  unfold callPostOp
  split
  . exact Sat.ret fun _ h => h
  . refine Sat.bind requireCode_keeps fun _ =>
      Keeps.bind_call hinv hmsg (fun _ h => h) ?_ fun success ret _ => ?_
    . exact fun _ => .inr (refused_postOp d.cfg)
    . exact Sat.require fun _ _ h => h

theorem postExecution_keeps {mode : PostOpMode} {opInfo : UserOpInfo} {context : Bytes}
    {actualGas : Nat}
    : d.Keeps inv msg (d.Holds used 0 (locked + opInfo.prefund) collected)
        (postExecution msg mode opInfo context actualGas)
        fun cost w => d.Holds used 0 locked (collected + cost) w := by
  refine Sat.bind_gasleft fun preGas => Sat.bind (callPostOp_keeps hinv hmsg) fun _ => ?_
  refine Sat.bind_gasleft fun gas => ?_
  dsimp only
  split
  . split
    . exact chargePrefund_keeps
    . exact Sat.revert
  . refine Sat.bind (incrementDeposit_keeps ?_ ?_) fun _ => Sat.bind_emit (Sat.ret fun _ h => h)
    . intro b hl hc
      refine ⟨?_, congrArg (· + _) hc, rfl⟩
      change b.locked - opInfo.prefund = locked
      rw [hl, Nat.add_sub_cancel]
    . omega

theorem callAccount_keeps {callData : CallData} {opInfo : UserOpInfo}
    (hsender : opInfo.mUserOp.sender ≠ d.entryPoint)
    : d.Keeps inv msg (d.Holds used 0 locked collected) (callAccount callData opInfo)
        fun _ => d.Holds used 0 locked collected := by
  unfold callAccount
  split
  . exact Sat.ret fun _ h => h
  . refine Keeps.bind_call hinv hmsg (fun _ h => h) (fun h => absurd h hsender) ?_
    intro success ret _
    dsimp only
    split
    . exact Sat.ret fun _ h => h
    . split
      . exact Sat.bind_emit (Sat.ret fun _ h => h)
      . exact Sat.ret fun _ h => h

theorem innerHandleOp_keeps {callData : CallData} {opInfo : UserOpInfo} {context : Bytes}
    (hsender : opInfo.mUserOp.sender ≠ d.entryPoint)
    : d.Keeps inv msg (d.Holds used 0 (locked + opInfo.prefund) collected)
        (innerHandleOp msg callData opInfo context)
        fun r w => ∃ cost, r = .words [cost] ∧ d.Holds used 0 locked (collected + cost) w := by
  refine Sat.bind_gasleft fun preGas => Sat.bind_require fun _ => Sat.bind_gasleft fun gas => ?_
  refine Sat.bind_require fun _ => Sat.bind (callAccount_keeps hinv hmsg hsender) fun mode => ?_
  refine Sat.bind_gasleft fun gas => Sat.bind (postExecution_keeps hinv hmsg) fun cost => ?_
  exact Sat.ret fun w h => ⟨cost, rfl, h⟩

omit hinv hmsg in
theorem gasSince_keeps {preGas : Nat} {opInfo : UserOpInfo}
    : d.Keeps inv msg P (gasSince preGas opInfo) fun _ => P :=
  Sat.bind_gasleft fun _ => Keeps.bind_lift fun _ _ => Keeps.lift.mono (fun _ h => h) fun _ _ h => h.1

/-- Whatever happens to the call of `innerHandleOp`, the prefund is settled by what is returned. -/
theorem executeUserOp_keeps {opIndex : Nat} {userOp : PackedUserOperation} {opInfo : UserOpInfo}
    (hsender : opInfo.mUserOp.sender ≠ d.entryPoint)
    : d.Keeps inv msg (d.Holds used 0 (locked + opInfo.prefund) collected)
        (executeUserOp msg opIndex userOp opInfo)
        fun cost w => d.Holds used 0 locked (collected + cost) w := by
  refine Sat.bind_gasleft fun preGas => Sat.bind (Q := fun r w => if r.1 = true
    then ∃ cost, r.2 = .words [cost] ∧ d.Holds used 0 locked (collected + cost) w
    else d.Holds used 0 (locked + opInfo.prefund) collected w) (Sat.call ?_) ?_
  . intro s hs
    obtain ⟨hvisited, hok⟩ := hinv.inner s (innerCallData userOp opInfo) opInfo opInfo.context msg.env
      hsender hs
    rw [← hmsg] at hvisited hok
    dsimp only
    cases hr : (inv ⟨msg.self, msg.self, 0, .innerHandleOp (innerCallData userOp opInfo) opInfo
      opInfo.context, msg.env⟩ s).ok with
    | true =>
      obtain ⟨cost, hdata, hafter⟩ := hok hr
      exact ⟨hvisited, hafter.safe, cost, hdata, hafter⟩
    | false =>
      rw [hinv.failed _ _ hr]
      exact ⟨hvisited, hs.safe, hs⟩
  . rintro ⟨success, ret⟩
    cases success with
    | true =>
      refine Sat.ret fun w hw => ?_
      obtain ⟨cost, hdata, hafter⟩ := hw
      subst hdata
      have hcost : cost < Yul.wordSize := by
        have := hafter.collected_lt
        unfold Yul.wordSize
        omega
      have hbytes : (ReturnData.words [cost]).toBytes = Abi.wordBytes cost := List.append_nil _
      rw [hbytes, Abi.wordAt_wordBytes hcost]
      exact hafter
    | false =>
      dsimp only
      split
      . next h => cases h
      . split
        . exact Sat.revert
        . split
          . exact Sat.bind gasSince_keeps fun _ => chargePrefund_keeps
          . refine Sat.bind_emit (Sat.bind gasSince_keeps fun actualGas => ?_)
            exact postExecution_keeps hinv hmsg

/-! ## Bundles -/

omit hinv hmsg in
/-- Filling in the operations one after the other. -/
theorem fill_cons {α : Type} {l l' new : List α} {i n : Nat} {a : α} (hi : i < l.length)
    (h : l' = (l.set i a).take (i + 1) ++ new ++ (l.set i a).drop (i + 1 + n))
    : l' = l.take i ++ (a :: new) ++ l.drop (i + (n + 1)) := by
  have htake : (l.set i a).take (i + 1) = l.take i ++ [a] := by
    rw [List.take_add_one, List.take_set_of_le (Nat.le_refl i), List.getElem?_set_self hi]
    rfl
  have hdrop : (l.set i a).drop (i + 1 + n) = l.drop (i + (n + 1)) := by
    rw [List.drop_set_of_lt (by omega)]
    congr 1
    omega
  rw [h, htake, hdrop]
  simp only [List.append_assoc, List.cons_append, List.nil_append]

omit hinv hmsg in
/-- Filling in the groups one after the other. -/
theorem fill_append {α : Type} {l l' new new' : List α} {i n : Nat} (hi : i + new.length ≤ l.length)
    (h : l' = (l.take i ++ new ++ l.drop (i + new.length)).take (i + new.length) ++ new'
      ++ (l.take i ++ new ++ l.drop (i + new.length)).drop (i + new.length + n))
    : l' = l.take i ++ (new ++ new') ++ l.drop (i + (new.length + n)) := by
  have hlength : (l.take i ++ new).length = i + new.length := by
    rw [List.length_append, List.length_take, Nat.min_eq_left (by omega)]
  have htake : (l.take i ++ new ++ l.drop (i + new.length)).take (i + new.length)
      = l.take i ++ new :=
    List.take_left' hlength
  have hdrop : (l.take i ++ new ++ l.drop (i + new.length)).drop (i + new.length + n)
      = l.drop (i + (new.length + n)) := by
    rw [← List.drop_drop, List.drop_left' hlength, List.drop_drop, Nat.add_assoc]
  rw [h, htake, hdrop]
  simp only [List.append_assoc]

omit hinv hmsg in
theorem getOpInfo_eq {opInfos : List UserOpInfo} {i : Nat} {opInfo : UserOpInfo}
    (h : validateOps.getOpInfo opInfos i = .ok opInfo)
    : opInfos[i]? = some opInfo := by
  unfold validateOps.getOpInfo at h
  split at h
  . next heq =>
    cases h
    exact heq
  . cases h

/-- The operations from `opIndex` on are validated: their nonces have been accepted, their prefunds
are locked, and what else is in `opInfos` stays. -/
theorem validateOps_keeps {aggregator : Address} {i opIndex : Nat} {ops : List PackedUserOperation}
    {opInfos : List UserOpInfo}
    : d.Keeps inv msg (d.Holds used 0 locked collected)
        (validateOps d.cfg msg aggregator i opIndex ops opInfos) fun opInfos' w => ∃ new,
          opInfos' = opInfos.take opIndex ++ new ++ opInfos.drop (opIndex + ops.length)
          ∧ new.length = ops.length ∧ (∀ opInfo ∈ new, opInfo.mUserOp.sender ≠ d.entryPoint)
          ∧ d.Holds (used ++ ops.map noncePair) 0 (locked + (new.map UserOpInfo.prefund).sum) collected w := by
  induction ops generalizing i opIndex opInfos used locked with
  | nil => exact Sat.ret fun w hw => ⟨[], by simp, rfl, by simp, by simpa using hw⟩
  | cons op ops ih =>
    unfold validateOps
    refine Keeps.bind_lift fun opInfo hget => ?_
    refine Sat.bind (validatePrepayment_keeps hinv hmsg) fun r => ?_
    refine Sat.of_and fun hsender => Sat.bind validateValidationData_keeps fun _ => ?_
    refine ih.mono (fun _ h => h) ?_
    rintro opInfos' w ⟨new, heq, hlength, hnew, hw⟩
    have hi : opIndex < opInfos.length := (List.getElem?_eq_some_iff.mp (getOpInfo_eq hget)).1
    refine ⟨r.1 :: new, fill_cons hi heq, by rw [List.length_cons, List.length_cons, hlength], ?_, ?_⟩
    . intro opInfo' hmem
      rcases List.mem_cons.mp hmem with rfl | hmem
      . exact hsender
      . exact hnew opInfo' hmem
    . rw [List.map_cons, List.map_cons, List.sum_cons, ← Nat.add_assoc, List.append_cons]
      exact hw

/-- The operations from `opIndex` on are settled, and what they pay is collected. -/
theorem executeOps_keeps {add : Nat → Nat → Checked Nat} {start opIndex : Nat}
    {ops : List PackedUserOperation} {opInfos new rest : List UserOpInfo}
    (hadd : ∀ a b c, a + b < 2 ^ 256 → add a b = .ok c → c = a + b)
    (hnew : opInfos.drop opIndex = new ++ rest) (hlength : new.length = ops.length)
    (hsender : ∀ opInfo ∈ new, opInfo.mUserOp.sender ≠ d.entryPoint)
    : d.Keeps inv msg (d.Holds used 0 (locked + (new.map UserOpInfo.prefund).sum) (start + collected))
        (executeOps msg add opIndex ops opInfos collected)
        fun total w => d.Holds used 0 locked (start + total) w := by
  induction ops generalizing opIndex new collected with
  | nil =>
    rw [List.length_eq_zero_iff.mp hlength]
    exact Sat.ret fun w hw => hw
  | cons op ops ih =>
    cases new with
    | nil => cases hlength
    | cons opInfo new =>
      unfold executeOps
      refine Keeps.bind_lift fun opInfo' hget => ?_
      have hget' := getOpInfo_eq hget
      rw [← Nat.add_zero opIndex, ← List.getElem?_drop, hnew] at hget'
      cases hget'
      have hnew' : opInfos.drop (opIndex + 1) = new ++ rest := by
        rw [← List.drop_drop, hnew]
        rfl
      have hlocked : locked + ((opInfo :: new).map UserOpInfo.prefund).sum
          = locked + (new.map UserOpInfo.prefund).sum + opInfo.prefund := by
        rw [List.map_cons, List.sum_cons]
        omega
      rw [hlocked]
      refine Sat.bind (executeUserOp_keeps hinv hmsg (hsender opInfo List.mem_cons_self)) fun paid => ?_
      refine Sat.of_pre (c := collected + paid < 2 ^ 256) ?_ fun hlt => ?_
      . intro w hw
        have := hw.collected_lt
        omega
      . refine Keeps.bind_lift fun collected' hcollected => ?_
        rw [Nat.add_assoc, ← hadd _ _ _ hlt hcollected]
        exact ih hnew' (Nat.succ.inj hlength) fun o ho => hsender o (List.mem_cons_of_mem _ ho)

theorem compensate_keeps {beneficiary : Address} {amount : Nat}
    : d.Keeps inv msg (d.Holds used 0 locked (collected + amount)) (compensate beneficiary amount)
        fun _ => d.Holds used 0 locked collected := by
  refine Sat.bind_require fun _ => Keeps.bind_sstore used amount locked collected ?_
    (Keeps.bind_call hinv hmsg (fun _ h => h) (fun _ => .inl rfl) fun success ret _ =>
      Sat.require fun _ _ h => h)
  intro w h
  refine h.writeDeposits ?_ h.locked ?_ rfl rfl
  . rw [Storage.owed_note]
    omega
  . change w.storage.entryPoint.books.collected - amount = collected
    rw [h.collected, Nat.add_sub_cancel]

omit hinv hmsg in
theorem nonReentrant_keeps {used' : List (Address × Word)} {body : EntryPoint.Code α}
    (h : d.Keeps inv msg (d.Holds used 0 locked collected) body fun _ =>
      d.Holds used' 0 locked collected)
    : d.Keeps inv msg (d.Holds used 0 locked collected) (nonReentrant d.cfg body)
        fun _ => d.Holds used' 0 locked collected := by
  have hentered (used : List (Address × Word)) (entered : Storage → Bool) (w : World (Chain X))
      (hw : d.Holds used 0 locked collected w)
      : d.Holds used 0 locked collected
          (w.write Chain.entryPointPart fun s => { s with entered := entered s }) :=
    hw.congr rfl rfl rfl (Nat.le_refl _)
  refine Keeps.bind_sload fun s => Keeps.bind_getOrRevert fun entered _ => ?_
  refine Keeps.bind_sstore used 0 locked collected
    (fun w hw => hentered used (fun _ => entered) w hw.1) ?_
  refine Sat.bind h fun a => Keeps.bind_sstore used' 0 locked collected ?_ (Sat.ret fun _ h => h)
  exact fun w hw => hentered used' (fun s => d.cfg.nonReentrantAfter s.entered) w hw

theorem handleOps_keeps {ops : List PackedUserOperation} {beneficiary : Address}
    : d.Keeps inv msg (d.Holds used 0 locked collected) (handleOps d.cfg msg ops beneficiary)
        fun _ => d.Holds (used ++ ops.map noncePair) 0 locked collected := by
  refine nonReentrant_keeps (Sat.bind (validateOps_keeps hinv hmsg) fun opInfos => ?_)
  refine Sat.of_exists fun new => Sat.of_and fun hfill => Sat.of_and fun hlength => ?_
  refine Sat.of_and fun hsender => Sat.bind_emit ?_
  have hnew : opInfos.drop 0 = new ++ [] := by
    rw [hfill]
    simp
  rw [← Nat.add_zero collected]
  refine Sat.bind (executeOps_keeps hinv hmsg ?_ hnew hlength hsender) fun total => ?_
  . intro a b c hlt hadd
    cases hadd
    exact Nat.mod_eq_of_lt hlt
  . exact Sat.bind (compensate_keeps hinv hmsg) fun _ => Sat.ret fun _ h => h

theorem validateAggregators_keeps {opas : List UserOpsPerAggregator}
    : d.Keeps inv msg (d.Holds used 0 locked collected) (validateAggregators opas)
        fun _ => d.Holds used 0 locked collected := by
  induction opas with
  | nil => exact Sat.ret fun _ h => h
  | cons opa opas ih =>
    refine Sat.bind_require fun _ => Sat.bind (Q := fun _ => d.Holds used 0 locked collected) ?_ fun _ => ih
    unfold validateAggregators.validateSignatures
    split
    . exact Sat.ret fun _ h => h
    . refine Sat.bind requireCode_keeps fun _ =>
        Keeps.bind_call hinv hmsg (fun _ h => h) ?_ fun success ret _ => ?_
      . exact fun _ => .inr (refused_validateSignatures d.cfg)
      . exact Sat.require fun _ _ h => h

theorem validateGroups_keeps {opIndex : Nat} {opas : List UserOpsPerAggregator}
    {opInfos : List UserOpInfo} (hle : opIndex + totalOps opas ≤ opInfos.length)
    : d.Keeps inv msg (d.Holds used 0 locked collected) (validateGroups d.cfg msg opIndex opas opInfos)
        fun opInfos' w => ∃ new,
          opInfos' = opInfos.take opIndex ++ new ++ opInfos.drop (opIndex + totalOps opas)
          ∧ new.length = totalOps opas ∧ (∀ opInfo ∈ new, opInfo.mUserOp.sender ≠ d.entryPoint)
          ∧ d.Holds (used ++ UserOpsPerAggregator.noncePairs opas) 0
              (locked + (new.map UserOpInfo.prefund).sum) collected w := by
  induction opas generalizing opIndex opInfos used locked with
  | nil => exact Sat.ret fun w hw => ⟨[], by simp [totalOps], rfl, by simp, by
    simpa [UserOpsPerAggregator.noncePairs] using hw⟩
  | cons opa opas ih =>
    have htotal : totalOps (opa :: opas) = opa.userOps.length + totalOps opas := rfl
    refine Sat.bind (validateOps_keeps hinv hmsg) fun opInfos1 => ?_
    refine Sat.of_exists fun new1 => Sat.of_and fun hfill1 => Sat.of_and fun hlength1 => ?_
    refine Sat.of_and fun hsender1 => ?_
    have hle1 : opIndex + opa.userOps.length + totalOps opas ≤ opInfos1.length := by
      rw [hfill1]
      simp only [List.length_append, List.length_take, List.length_drop]
      omega
    refine (ih hle1).mono (fun _ h => h) ?_
    rintro opInfos2 w ⟨new2, hfill2, hlength2, hsender2, hw⟩
    refine ⟨new1 ++ new2, ?_, ?_, ?_, ?_⟩
    . rw [hfill1, ← hlength1] at hfill2
      rw [htotal, ← hlength1]
      exact fill_append (by omega) hfill2
    . rw [List.length_append, hlength1, hlength2, htotal]
    . intro opInfo hmem
      exact (List.mem_append.mp hmem).elim (hsender1 opInfo) (hsender2 opInfo)
    . rw [List.map_append, List.sum_append, ← Nat.add_assoc, UserOpsPerAggregator.noncePairs,
        List.flatMap_cons, ← List.append_assoc]
      exact hw

theorem executeGroups_keeps {start opIndex : Nat} {opas : List UserOpsPerAggregator}
    {opInfos new : List UserOpInfo} (hnew : opInfos.drop opIndex = new)
    (hlength : new.length = totalOps opas)
    (hsender : ∀ opInfo ∈ new, opInfo.mUserOp.sender ≠ d.entryPoint)
    : d.Keeps inv msg (d.Holds used 0 (locked + (new.map UserOpInfo.prefund).sum) (start + collected))
        (executeGroups msg opIndex opas opInfos collected)
        fun total w => d.Holds used 0 locked (start + total) w := by
  induction opas generalizing opIndex new collected with
  | nil =>
    rw [List.length_eq_zero_iff.mp hlength]
    exact Sat.ret fun w hw => hw
  | cons opa opas ih =>
    have htotal : totalOps (opa :: opas) = opa.userOps.length + totalOps opas := rfl
    have hsum : locked + (new.map UserOpInfo.prefund).sum
        = locked + ((new.drop opa.userOps.length).map UserOpInfo.prefund).sum
          + ((new.take opa.userOps.length).map UserOpInfo.prefund).sum := by
      conv_lhs => rw [← List.take_append_drop opa.userOps.length new]
      rw [List.map_append, List.sum_append]
      omega
    have hnew' : opInfos.drop opIndex = new.take opa.userOps.length ++ new.drop opa.userOps.length := by
      rw [List.take_append_drop, hnew]
    rw [hsum]
    refine Sat.bind_emit (Sat.bind (executeOps_keeps hinv hmsg ?_ hnew' ?_ ?_) fun total => ?_)
    . intro a b c _ hadd
      exact Solidity.eq_of_add hadd
    . rw [List.length_take]
      omega
    . exact fun opInfo hmem => hsender opInfo (List.mem_of_mem_take hmem)
    . refine ih ?_ ?_ fun opInfo hmem => hsender opInfo (List.mem_of_mem_drop hmem)
      . rw [← List.drop_drop, hnew]
      . rw [List.length_drop]
        omega

theorem handleAggregatedOps_keeps {opsPerAggregator : List UserOpsPerAggregator}
    {beneficiary : Address}
    : d.Keeps inv msg (d.Holds used 0 locked collected)
        (handleAggregatedOps d.cfg msg opsPerAggregator beneficiary)
        fun _ => d.Holds (used ++ UserOpsPerAggregator.noncePairs opsPerAggregator) 0 locked collected := by
  refine nonReentrant_keeps (Sat.bind (validateAggregators_keeps hinv hmsg) fun _ => ?_)
  refine Sat.bind (validateGroups_keeps hinv hmsg (by simp)) fun opInfos => ?_
  refine Sat.of_exists fun new => Sat.of_and fun hfill => Sat.of_and fun hlength => ?_
  refine Sat.of_and fun hsender => Sat.bind_emit ?_
  rw [← Nat.add_zero collected]
  refine Sat.bind (executeGroups_keeps hinv hmsg ?_ hlength hsender) fun total => ?_
  . rw [hfill]
    simp
  . refine Sat.bind_emit ?_
    exact Sat.bind (compensate_keeps hinv hmsg) fun _ => Sat.ret fun _ h => h

/-! ## The contract -/

theorem getSenderAddress_keeps {initCode : Bytes} {Q : ReturnData → World (Chain X) → Prop}
    : d.Keeps inv msg (d.Holds used 0 locked collected) (getSenderAddress d.cfg initCode) Q := by
  refine Keeps.bind_call hinv hmsg (fun _ h => h) ?_ fun success ret _ => ?_
  . exact fun h => absurd h d.entryPoint_ne.symm
  . exact Sat.bind_require fun _ => Keeps.bind_getOrRevert fun _ _ => Sat.revert

omit hinv hmsg in
theorem nonpayable_keeps {body : EntryPoint.Code α} {Q : α → World (Chain X) → Prop}
    (h : d.Keeps inv msg (d.Holds used 0 locked collected) body Q)
    : d.Keeps inv msg (d.Holds used msg.value locked collected) (nonpayable msg body) Q := by
  refine Sat.bind_require fun hvalue => ?_
  rw [of_decide_eq_true hvalue]
  exact h

/-- Anyone but the entry point itself may call any function. -/
theorem dispatch_keeps (hforeign : msg.caller = d.entryPoint → d.Foreign msg.self msg.message)
    : d.Keeps inv msg (d.Holds used msg.value locked collected) (dispatch d.cfg msg)
        fun _ => d.Holds used 0 locked collected := by
  by_cases hrefused : Refused d.cfg msg.message
  . rw [hrefused msg rfl]
    exact Sat.revert
  have hmessage : msg.caller = d.entryPoint → msg.message = .bytes [] :=
    fun hcaller => (hforeign hcaller hmsg).resolve_right hrefused
  unfold dispatch
  split
  . exact depositTo_keeps
  . exact depositTo_keeps
  . exact addStake_keeps
  . exact nonpayable_keeps unlockStake_keeps
  . exact nonpayable_keeps (withdrawStake_keeps hinv hmsg)
  . exact nonpayable_keeps (withdrawTo_keeps hinv hmsg)
  . exact nonpayable_keeps incrementNonce_keeps
  . exact nonpayable_keeps (Keeps.bind_sload fun s => Sat.ret fun _ h => h.1)
  . exact nonpayable_keeps ((handleOps_keeps hinv hmsg).mono (fun _ h => h) fun _ _ h => h.unuse)
  . exact nonpayable_keeps
      ((handleAggregatedOps_keeps hinv hmsg).mono (fun _ h => h) fun _ _ h => h.unuse)
  . next hdecode =>
    refine nonpayable_keeps (Sat.bind_gasleft fun _ => Sat.bind_require fun hcaller => ?_)
    rw [hmessage ((of_decide_eq_true hcaller).trans hmsg)] at hdecode
    cases hdecode
  . exact nonpayable_keeps (getSenderAddress_keeps hinv hmsg)
  . exact nonpayable_keeps (Sat.bind Sat.delegatecall fun _ => Sat.revert)
  . exact Sat.revert

end

end Deployment
