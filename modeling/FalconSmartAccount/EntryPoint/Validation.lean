import FalconSmartAccount.EntryPoint.Deployment

/-!
What the validation of an operation leaves in the trace of its bundle, if the bundle goes on.
-/

open Evm

namespace Deployment

open EntryPoint

variable {X : Type}

/-- A prefund is taken from a deposit that covers it. -/
def Locks (account : Address) (prefund : Nat) (before after : World (Chain X)) : Prop :=
  prefund ≤ (before.storage.entryPoint.deposits account).deposit
    ∧ after = before.write Chain.entryPointPart fun s =>
        (s.setDeposit account ((before.storage.entryPoint.deposits account).deposit - prefund)).note
          (Books.lock prefund)

/-- The nonce is the next one, and is used up. -/
def Accepts (sender : Address) (nonce : Word) (before after : World (Chain X)) : Prop :=
  before.storage.entryPoint.nonceSequenceNumber sender (nonceKey nonce) = nonceSeq nonce
    ∧ after = before.write Chain.entryPointPart fun s =>
        (s.setNonce sender (nonceKey nonce) (nonceSeq nonce + 1)).note (Books.accept sender nonce)

/-- There is code at the address. -/
def Deployed (d : Deployment X) (w : World (Chain X)) (a : Address) : Prop :=
  d.codeLength w.storage.rest a ≠ 0

instance (d : Deployment X) (w : World (Chain X)) (a : Address) : Decidable (d.Deployed w a) :=
  inferInstanceAs (Decidable (_ ≠ _))

/-- The paymaster that an operation names, or zero. -/
def paymasterOf (op : PackedUserOperation) : Address :=
  match copyUserOpToMemory op with
  | some mUserOp => mUserOp.paymaster
  | none => 0

/-- The trace `t` of the creation of the sender of `op`. -/
inductive SenderCreated (d : Deployment X) (msg : Frame Message) (op : PackedUserOperation)
    : Chain.Trace X → Prop where
  | none : op.initCode.length = 0 → SenderCreated d msg op []
  | creates {before after ret body} :
      op.initCode.length ≠ 0 →
      ¬d.Deployed before op.sender →
      d.Deployed after op.sender →
      ret.decodeAddress = some op.sender →
      op.sender ≠ 0 →
      SenderCreated d msg op
        [.call ⟨d.cfg.senderCreator, msg.self, 0, .createSender op.initCode, msg.env⟩ before after true ret
            body,
          .log (.accountDeployed (getUserOpHash d.cfg op) op.sender (Abi.addressAt op.initCode 0)
            (paymasterOf op))]

section

variable (d : Deployment X) (msg : Frame Message)

/-- The frame called a function, which returned `ret`. -/
def Called (target : Address) (message : Message) (ret : ReturnData) (t : Chain.Trace X) : Prop :=
  ∃ before after body,
    .call ⟨target, msg.self, 0, message, msg.env⟩ before after true ret body ∈ t

/-- The events of the validation of `op`. -/
inductive Validating (op : PackedUserOperation) (mUserOp : MemoryUserOp)
    : Event (Chain X) Message ReturnData Log → Prop where
  | create {before after ok ret body} :
      Validating op mUserOp (.call ⟨d.cfg.senderCreator, msg.self, 0, .createSender op.initCode, msg.env⟩
        before after ok ret body)
  | deployed :
      Validating op mUserOp (.log (.accountDeployed (getUserOpHash d.cfg op) op.sender
        (Abi.addressAt op.initCode 0) mUserOp.paymaster))
  | account {missing before after ok ret body} :
      Validating op mUserOp (.call
        ⟨op.sender, msg.self, 0, .validateUserOp op (getUserOpHash d.cfg op) missing, msg.env⟩
        before after ok ret body)
  | paymaster {before after ok ret body} :
      Validating op mUserOp (.call ⟨mUserOp.paymaster, msg.self, 0,
        .validatePaymasterUserOp op (getUserOpHash d.cfg op) (getRequiredPrefund mUserOp), msg.env⟩
        before after ok ret body)
  | locks {before after} :
      Locks mUserOp.payer (getRequiredPrefund mUserOp) before after →
      Validating op mUserOp (.sstore before after)
  | accepts {before after} :
      Accepts op.sender op.nonce before after → Validating op mUserOp (.sstore before after)

/-- The account has agreed to `op`, with the signature left to the aggregator. -/
def AccountAgrees (aggregator : Address) (op : PackedUserOperation) (t : Chain.Trace X) : Prop :=
  ∃ missing ret validationData,
    Called msg op.sender (.validateUserOp op (getUserOpHash d.cfg op) missing) ret t
      ∧ ret.decodeWord = some validationData
      ∧ getValidationData msg.env.timestamp validationData = (aggregator, false)

/-- The paymaster has agreed to pay for `op`. -/
def PaymasterAgrees (op : PackedUserOperation) (mUserOp : MemoryUserOp) (context : Bytes)
    (t : Chain.Trace X) : Prop :=
  ∃ ret validationData,
    Called msg mUserOp.paymaster
        (.validatePaymasterUserOp op (getUserOpHash d.cfg op) (getRequiredPrefund mUserOp)) ret t
      ∧ ret.decodeContext = some (context, validationData)
      ∧ getValidationData msg.env.timestamp validationData = (0, false)

/-- The trace `t` of the validation of `op`, which `opInfo` is the result of. -/
structure Validation (aggregator : Address) (op : PackedUserOperation) (opInfo : UserOpInfo)
    (t : Chain.Trace X) : Prop where
  mUserOp : copyUserOpToMemory op = some opInfo.mUserOp
  userOpHash : opInfo.userOpHash = getUserOpHash d.cfg op
  prefund : opInfo.prefund = getRequiredPrefund opInfo.mUserOp
  account : d.AccountAgrees msg aggregator op t
  paymaster : opInfo.mUserOp.paymaster ≠ 0 →
    d.PaymasterAgrees msg op opInfo.mUserOp opInfo.context t
  nonce : ∃ before after, .sstore before after ∈ t ∧ Accepts op.sender op.nonce before after
  events : ∀ e ∈ t, d.Validating msg op opInfo.mUserOp e

end

/-- The trace of `_validatePrepayment`. The sender's deposit is locked before the nonce is used up, the
paymaster's after it. -/
inductive Prepaid (d : Deployment X) (msg : Frame Message) (op : PackedUserOperation) (opInfo : UserOpInfo)
    (validationData : Nat) : Nat → Chain.Trace X → Prop where
  | bySender {tc missing before after ret body before1 after1 before2 after2} :
      opInfo.mUserOp.paymaster = 0 →
      opInfo.context = [] →
      SenderCreated d msg op tc →
      ret.decodeWord = some validationData →
      Locks opInfo.mUserOp.payer opInfo.prefund before1 after1 →
      Accepts op.sender op.nonce before2 after2 →
      Prepaid d msg op opInfo validationData 0 (tc ++
        [.call ⟨op.sender, msg.self, 0, .validateUserOp op (getUserOpHash d.cfg op) missing, msg.env⟩
            before after true ret body,
          .sstore before1 after1,
          .sstore before2 after2])
  | byPaymaster {pmValidationData tc missing before after ret body before1 after1 before2 after2}
      {before3 after3 ret3 body3} :
      opInfo.mUserOp.paymaster ≠ 0 →
      SenderCreated d msg op tc →
      ret.decodeWord = some validationData →
      Accepts op.sender op.nonce before1 after1 →
      Locks opInfo.mUserOp.payer opInfo.prefund before2 after2 →
      ret3.decodeContext = some (opInfo.context, pmValidationData) →
      Prepaid d msg op opInfo validationData pmValidationData (tc ++
        [.call ⟨op.sender, msg.self, 0, .validateUserOp op (getUserOpHash d.cfg op) missing, msg.env⟩
            before after true ret body,
          .sstore before1 after1,
          .sstore before2 after2,
          .call ⟨opInfo.mUserOp.paymaster, msg.self, 0,
              .validatePaymasterUserOp op (getUserOpHash d.cfg op) opInfo.prefund, msg.env⟩
            before3 after3 true ret3 body3])

/-- What a run of `_validatePrepayment` with the trace `t` returns. -/
structure Prepayment (d : Deployment X) (msg : Frame Message) (op : PackedUserOperation)
    (opInfo : UserOpInfo) (validationData pmValidationData : Nat) (t : Chain.Trace X) : Prop where
  mUserOp : copyUserOpToMemory op = some opInfo.mUserOp
  userOpHash : opInfo.userOpHash = getUserOpHash d.cfg op
  prefund : opInfo.prefund = getRequiredPrefund opInfo.mUserOp
  trace : Prepaid d msg op opInfo validationData pmValidationData t

/-- A run of `validatePrepayment`, which is part of `t`, has filled `opInfo` for `op`. -/
def Filled (d : Deployment X)
    (inv : Frame Message → State (Chain X) → Reply (Chain X) Message ReturnData Log)
    (msg : Frame Message) (op : PackedUserOperation) (opInfo : UserOpInfo) (t : Chain.Trace X) : Prop :=
  ∃ opIndex outOpInfo validationData pmValidationData s s' t', t' <:+: t
    ∧ d.Returns inv msg (validatePrepayment d.cfg opIndex op outOpInfo) s
        (opInfo, validationData, pmValidationData) s' t'

variable {d : Deployment X} {msg : Frame Message}

theorem Called.mono {target : Address} {message : Message} {ret : ReturnData} {t t' : Chain.Trace X}
    (h : Called msg target message ret t) (hsub : ∀ e ∈ t, e ∈ t')
    : Called msg target message ret t' := by
  obtain ⟨before, after, body, hmem⟩ := h
  exact ⟨before, after, body, hsub _ hmem⟩

theorem AccountAgrees.mono {aggregator : Address} {op : PackedUserOperation} {t t' : Chain.Trace X}
    (h : d.AccountAgrees msg aggregator op t) (hsub : ∀ e ∈ t, e ∈ t')
    : d.AccountAgrees msg aggregator op t' := by
  obtain ⟨missing, ret, validationData, hcalled, hrest⟩ := h
  exact ⟨missing, ret, validationData, hcalled.mono hsub, hrest⟩

theorem PaymasterAgrees.mono {op : PackedUserOperation} {mUserOp : MemoryUserOp} {context : Bytes}
    {t t' : Chain.Trace X} (h : d.PaymasterAgrees msg op mUserOp context t) (hsub : ∀ e ∈ t, e ∈ t')
    : d.PaymasterAgrees msg op mUserOp context t' := by
  obtain ⟨ret, validationData, hcalled, hrest⟩ := h
  exact ⟨ret, validationData, hcalled.mono hsub, hrest⟩

variable {inv : Frame Message → State (Chain X) → Reply (Chain X) Message ReturnData Log}
  {s s' : State (Chain X)} {t : Chain.Trace X} {op : PackedUserOperation} {mUserOp : MemoryUserOp}

/-! ## Validation -/

theorem createSenderIfNeeded_returns {opIndex : Nat} {opInfo : UserOpInfo} {u : Unit}
    (hsender : opInfo.mUserOp.sender = op.sender) (hhash : opInfo.userOpHash = getUserOpHash d.cfg op)
    (hpaymaster : opInfo.mUserOp.paymaster = paymasterOf op)
    (h : d.Returns inv msg (createSenderIfNeeded d.cfg opIndex opInfo op.initCode) s u s' t)
    : SenderCreated d msg op t := by
  unfold createSenderIfNeeded at h
  split at h
  . next hempty =>
    rw [h.pure.2.2]
    apply SenderCreated.none hempty
  . next hne =>
    rw [hsender] at h
    obtain ⟨s1, hw1, h⟩ := h.bind_codeLength
    obtain ⟨hbefore, h⟩ := h.bind_require
    obtain ⟨r, s2, s3, s4, body, t', hw2, hw4, _, ht, h⟩ := h.bind_call
    obtain ⟨hsuccess, h⟩ := h.bind_require
    obtain ⟨sender1, hdecode, h⟩ := Returns.bind_getOrRevert h
    obtain ⟨hzero, h⟩ := h.bind_require
    obtain ⟨hsame, h⟩ := h.bind_require
    have heq : sender1 = op.sender := beq_iff_eq.mp hsame
    rw [heq] at hdecode hzero h
    obtain ⟨s5, hw5, h⟩ := h.bind_codeLength
    obtain ⟨hafter, h⟩ := h.bind_require
    rw [ht]
    rw [h.emit.2]
    rw [hsuccess]
    rw [hhash]
    rw [hpaymaster]
    apply SenderCreated.creates hne
    . rw [hw1]
      apply not_not_intro
      apply beq_iff_eq.mp hbefore
    . rw [← hw4]
      apply bne_iff_ne.mp hafter
    . apply hdecode
    . apply bne_iff_ne.mp hzero

theorem missingAccountFunds_returns {requiredPrefund missing : Nat}
    (h : d.Returns inv msg (missingAccountFunds mUserOp requiredPrefund) s missing s' t)
    : t = [] := by
  unfold missingAccountFunds at h
  split at h
  . obtain ⟨s1, _, h⟩ := Returns.bind_balanceOf h
    exact h.pure.2.2
  . exact h.pure.2.2

/-- The sender pays if there is no paymaster. -/
theorem deductAccountPrefund_returns {opIndex : Nat} {u : Unit}
    (h : d.Returns inv msg (deductAccountPrefund opIndex mUserOp (getRequiredPrefund mUserOp))
      s u s' t)
    : mUserOp.paymaster = 0 ∧ (∃ before after, t = [.sstore before after]
          ∧ Locks mUserOp.payer (getRequiredPrefund mUserOp) before after)
        ∨ mUserOp.paymaster ≠ 0 ∧ t = [] := by
  unfold deductAccountPrefund at h
  split at h
  . next hnone =>
    obtain ⟨s1, hw, h⟩ := Returns.bind_balanceOf h
    obtain ⟨hle, h⟩ := h.bind_require
    obtain ⟨_, ht⟩ := h.sstore
    have hpayer : mUserOp.sender = mUserOp.payer := (if_pos hnone).symm
    rw [hpayer] at hle ht
    refine .inl ⟨hnone, s1.world, _, ht, ?_⟩
    rw [hw]
    exact ⟨of_decide_eq_true hle, rfl⟩
  . next hsome => exact .inr ⟨hsome, h.pure.2.2⟩

theorem validateAccountPrepayment_returns {opIndex validationData gas : Nat} {opInfo : UserOpInfo}
    (hsender : opInfo.mUserOp.sender = op.sender)
    (hhash : opInfo.userOpHash = getUserOpHash d.cfg op)
    (hpaymaster : opInfo.mUserOp.paymaster = paymasterOf op)
    (h : d.Returns inv msg (validateAccountPrepayment d.cfg opIndex op opInfo
      (getRequiredPrefund opInfo.mUserOp) gas) s validationData s' t)
    : ∃ tc missing before after ret body td, SenderCreated d msg op tc
        ∧ ret.decodeWord = some validationData
        ∧ t = tc ++ .call ⟨op.sender, msg.self, 0,
            .validateUserOp op (getUserOpHash d.cfg op) missing, msg.env⟩ before after true ret body :: td
        ∧ (opInfo.mUserOp.paymaster = 0 ∧ (∃ before after, td = [.sstore before after]
            ∧ Locks opInfo.mUserOp.payer (getRequiredPrefund opInfo.mUserOp) before after)
          ∨ opInfo.mUserOp.paymaster ≠ 0 ∧ td = []) := by
  obtain ⟨_, s1, t1, t2, h1, h, ht⟩ := h.bind
  obtain ⟨missing, s2, t3, t4, h2, h, ht2⟩ := h.bind
  obtain ⟨r, s3, s4, s5, body, t5, _, _, _, ht4, h⟩ := h.bind_call
  obtain ⟨hsuccess, h⟩ := h.bind_require
  obtain ⟨validationData', hdecode, h⟩ := Returns.bind_getOrRevert h
  obtain ⟨_, s6, t6, t7, h3, h, ht5⟩ := h.bind
  obtain ⟨hdata, _, ht7⟩ := h.pure
  subst hdata
  rw [ht, ht2, missingAccountFunds_returns h2, ht4, ht5, ht7, hsender, hhash, hsuccess, List.nil_append,
    List.append_nil]
  exact ⟨t1, missing, _, _, r.2, body, t6, createSenderIfNeeded_returns hsender hhash hpaymaster h1, hdecode,
    rfl, deductAccountPrefund_returns h3⟩

theorem validatePaymasterPrepayment_returns {opIndex : Nat} {opInfo : UserOpInfo} {r : Bytes × Nat}
    (hhash : opInfo.userOpHash = getUserOpHash d.cfg op) (hpaymaster : opInfo.mUserOp.paymaster ≠ 0)
    (h : d.Returns inv msg (validatePaymasterPrepayment opIndex op opInfo
      (getRequiredPrefund opInfo.mUserOp)) s r s' t)
    : ∃ before after before' after' ret body,
        Locks opInfo.mUserOp.payer (getRequiredPrefund opInfo.mUserOp) before after
        ∧ ret.decodeContext = some r
        ∧ t = [.sstore before after, .call ⟨opInfo.mUserOp.paymaster, msg.self, 0,
            .validatePaymasterUserOp op (getUserOpHash d.cfg op) (getRequiredPrefund opInfo.mUserOp), msg.env⟩
          before' after' true ret body] := by
  obtain ⟨preGas, s1, _, h⟩ := h.bind_gasleft
  obtain ⟨s2, hw2, h⟩ := Returns.bind_balanceOf h
  obtain ⟨hle, h⟩ := h.bind_require
  obtain ⟨s3, t1, _, ht1, h⟩ := h.bind_sstore
  obtain ⟨r', s4, s5, s6, body, t2, _, _, _, ht2, h⟩ := h.bind_call
  obtain ⟨hsuccess, h⟩ := h.bind_require
  obtain ⟨r'', hdecode, h⟩ := Returns.bind_getOrRevert h
  obtain ⟨gas, s7, _, h⟩ := h.bind_gasleft
  obtain ⟨limit, _, h⟩ := Returns.bind_lift h
  obtain ⟨_, h⟩ := h.bind_require
  obtain ⟨hr, _, ht⟩ := h.pure
  subst hr
  have hpayer : opInfo.mUserOp.payer = opInfo.mUserOp.paymaster := if_neg hpaymaster
  rw [ht1, ht2, ht, hhash, hsuccess, hpayer]
  refine ⟨_, _, _, _, r'.2, body, ?_, hdecode, rfl⟩
  rw [hw2]
  exact ⟨of_decide_eq_true hle, rfl⟩

theorem validateAndUpdateNonce_returns {sender : Address} {nonce : Word} {ok : Bool}
    (h : d.Returns inv msg (validateAndUpdateNonce sender nonce) s ok s' t) (hok : ok = true)
    : ∃ before after, Accepts sender nonce before after ∧ t = [.sstore before after] := by
  obtain ⟨s1, hw, h⟩ := h.bind_sload
  obtain ⟨next, hnext, h⟩ := Returns.bind_lift h
  obtain ⟨s2, t1, _, ht1, h⟩ := h.bind_sstore
  obtain ⟨hseq, _, ht⟩ := h.pure
  rw [hok] at hseq
  have hseq := beq_iff_eq.mp hseq.symm
  rw [ht1, ht, Solidity.eq_of_add hnext, if_pos hseq, hseq, hw]
  exact ⟨_, _, ⟨hseq, rfl⟩, rfl⟩

theorem validateValidationData_returns {opIndex validationData paymasterValidationData : Nat}
    {expectedAggregator : Address} {u : Unit}
    (h : d.Returns inv msg (validateAccountAndPaymasterValidationData msg opIndex validationData
      paymasterValidationData expectedAggregator) s u s' t)
    : getValidationData msg.env.timestamp validationData = (expectedAggregator, false)
      ∧ getValidationData msg.env.timestamp paymasterValidationData = (0, false) ∧ t = [] := by
  obtain ⟨haggregator, h⟩ := h.bind_require
  obtain ⟨htime, h⟩ := h.bind_require
  obtain ⟨hpm, h⟩ := h.bind_require
  obtain ⟨hpmtime, _, ht⟩ := h.require
  refine ⟨Prod.ext ?_ ?_, Prod.ext ?_ ?_, ht⟩
  . exact (beq_iff_eq.mp haggregator).symm
  . exact (Bool.not_eq_true' _).mp htime
  . exact beq_iff_eq.mp hpm
  . exact (Bool.not_eq_true' _).mp hpmtime

/-- All that a run of `_validatePrepayment` leaves in the trace. -/
theorem validatePrepayment_returns {opIndex validationData pmValidationData : Nat}
    {outOpInfo opInfo : UserOpInfo}
    (h : d.Returns inv msg (validatePrepayment d.cfg opIndex op outOpInfo) s
      (opInfo, validationData, pmValidationData) s' t)
    : Prepayment d msg op opInfo validationData pmValidationData t := by
  obtain ⟨preGas, s2, _, h⟩ := h.bind_gasleft
  obtain ⟨mUserOp, hcopy, h⟩ := Returns.bind_getOrRevert h
  obtain ⟨hsender, hnonce⟩ := copyUserOpToMemory_eq hcopy
  obtain ⟨_, h⟩ := h.bind_require
  obtain ⟨validationData', s3, t3, t4, h3, h, ht⟩ := h.bind
  let copied : UserOpInfo := { outOpInfo with
    mUserOp := mUserOp, userOpHash := getUserOpHash d.cfg op }
  have hcopied : copied.mUserOp.sender = op.sender := hsender
  have hhash : copied.userOpHash = getUserOpHash d.cfg op := rfl
  have hpaymaster : copied.mUserOp.paymaster = paymasterOf op := by
    unfold paymasterOf
    rw [hcopy]
  obtain ⟨tc, missing, before, after, ret, body, td, hcreated, hdecode, ht3, hdeducted⟩ :=
    validateAccountPrepayment_returns hcopied hhash hpaymaster h3
  obtain ⟨ok, s4, t5, t6, h4, h, ht4⟩ := h.bind
  obtain ⟨hok, h⟩ := h.bind_require
  obtain ⟨before', after', haccepts, ht5⟩ := validateAndUpdateNonce_returns h4 hok
  rw [hsender, hnonce] at haccepts
  obtain ⟨gas, s5, _, h⟩ := h.bind_gasleft
  obtain ⟨limit, _, h⟩ := Returns.bind_lift h
  obtain ⟨_, h⟩ := h.bind_require
  obtain ⟨r, s6, t7, t8, h5, h, ht6⟩ := h.bind
  obtain ⟨gas', s7, _, h⟩ := h.bind_gasleft
  obtain ⟨hopInfo, _, ht8⟩ := h.pure
  cases hopInfo
  refine ⟨hcopy, rfl, rfl, ?_⟩
  rw [ht, ht3, ht4, ht5, ht6, ht8, List.append_nil]
  split at h5
  . next hnone =>
    rcases hdeducted with ⟨_, before1, after1, htd, hlocks⟩ | ⟨hsome, _⟩
    . obtain ⟨hr, _, ht7⟩ := h5.pure
      cases hr
      rw [htd, ht7, List.append_assoc]
      exact .bySender hnone rfl hcreated hdecode hlocks haccepts
    . exact absurd hnone hsome
  . next hsome =>
    rcases hdeducted with ⟨hnone, _⟩ | ⟨_, htd⟩
    . exact absurd hnone hsome
    . obtain ⟨before1, after1, before2, after2, ret', body', hlocks, hdecode', ht7⟩ :=
        validatePaymasterPrepayment_returns hhash hsome h5
      rw [htd, ht7, List.append_assoc]
      exact .byPaymaster hsome hcreated hdecode haccepts hlocks hdecode'

/-! ## What the trace says -/

theorem SenderCreated.validating (h : SenderCreated d msg op t)
    (hcopy : copyUserOpToMemory op = some mUserOp)
    : ∀ e ∈ t, d.Validating msg op mUserOp e := by
  have hpaymaster : paymasterOf op = mUserOp.paymaster := by
    unfold paymasterOf
    rw [hcopy]
  cases h with
  | none => exact fun e he => absurd he List.not_mem_nil
  | creates =>
    intro e he
    rcases List.mem_cons.mp he with rfl | he
    . exact .create
    . rw [List.mem_singleton.mp he, hpaymaster]
      exact .deployed

namespace Prepayment

variable {opInfo : UserOpInfo} {validationData pmValidationData : Nat}

theorem events (h : Prepayment d msg op opInfo validationData pmValidationData t)
    : ∀ e ∈ t, d.Validating msg op opInfo.mUserOp e := by
  obtain ⟨hcopy, _, hprefund, htrace⟩ := h
  intro e he
  cases htrace with
  | bySender _ _ hcreated _ hlocks haccepts =>
    rw [hprefund] at hlocks
    rcases List.mem_append.mp he with he | he
    . exact hcreated.validating hcopy e he
    . simp only [List.mem_cons, List.not_mem_nil, or_false] at he
      rcases he with rfl | rfl | rfl
      . exact .account
      . exact .locks hlocks
      . exact .accepts haccepts
  | byPaymaster _ hcreated _ haccepts hlocks =>
    rw [hprefund] at hlocks he
    rcases List.mem_append.mp he with he | he
    . exact hcreated.validating hcopy e he
    . simp only [List.mem_cons, List.not_mem_nil, or_false] at he
      rcases he with rfl | rfl | rfl | rfl
      . exact .account
      . exact .accepts haccepts
      . exact .locks hlocks
      . exact .paymaster

theorem account (h : Prepayment d msg op opInfo validationData pmValidationData t)
    : ∃ missing ret, Called msg op.sender (.validateUserOp op (getUserOpHash d.cfg op) missing) ret t
        ∧ ret.decodeWord = some validationData := by
  cases h.trace with
  | bySender _ _ _ hdecode =>
    exact ⟨_, _, ⟨_, _, _, List.mem_append_right _ List.mem_cons_self⟩, hdecode⟩
  | byPaymaster _ _ hdecode =>
    exact ⟨_, _, ⟨_, _, _, List.mem_append_right _ List.mem_cons_self⟩, hdecode⟩

theorem paymaster (h : Prepayment d msg op opInfo validationData pmValidationData t)
    (hsome : opInfo.mUserOp.paymaster ≠ 0)
    : ∃ ret, Called msg opInfo.mUserOp.paymaster (.validatePaymasterUserOp op (getUserOpHash d.cfg op)
          (getRequiredPrefund opInfo.mUserOp)) ret t
        ∧ ret.decodeContext = some (opInfo.context, pmValidationData) := by
  cases h.trace with
  | bySender hnone => exact absurd hnone hsome
  | byPaymaster _ _ _ _ _ hdecode =>
    rw [← h.prefund]
    exact ⟨_, ⟨_, _, _, List.mem_append_right _ (List.mem_cons_of_mem _ (List.mem_cons_of_mem _
      (List.mem_cons_of_mem _ List.mem_cons_self)))⟩, hdecode⟩

theorem nonce (h : Prepayment d msg op opInfo validationData pmValidationData t)
    : ∃ before after, .sstore before after ∈ t ∧ Accepts op.sender op.nonce before after := by
  cases h.trace with
  | bySender _ _ _ _ _ haccepts => exact ⟨_, _, List.mem_append_right _ (by simp), haccepts⟩
  | byPaymaster _ _ _ haccepts => exact ⟨_, _, List.mem_append_right _ (by simp), haccepts⟩

/-- With the check of the validation data. -/
theorem validation {aggregator : Address} (h : Prepayment d msg op opInfo validationData pmValidationData t)
    (hdata : getValidationData msg.env.timestamp validationData = (aggregator, false))
    (hpmdata : getValidationData msg.env.timestamp pmValidationData = (0, false))
    : d.Validation msg aggregator op opInfo t := by
  refine ⟨h.mUserOp, h.userOpHash, h.prefund, ?_, ?_, h.nonce, h.events⟩
  . obtain ⟨missing, ret, hcalled, hdecode⟩ := h.account
    exact ⟨missing, ret, validationData, hcalled, hdecode, hdata⟩
  . intro hsome
    obtain ⟨ret, hcalled, hdecode⟩ := h.paymaster hsome
    exact ⟨ret, pmValidationData, hcalled, hdecode, hpmdata⟩

end Prepayment

end Deployment
