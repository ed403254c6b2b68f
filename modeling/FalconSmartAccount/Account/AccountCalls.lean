import FalconSmartAccount.Account.AccountStorage

/-!
What a call of an initialised account can do, by who makes it.
-/

open Evm

namespace AccountDeployment

open FalconSimpleAccount (Storage Executes Guarded Initialised decodeSignature)

variable {Y : Type}

/-- A call of the account that anyone may make. -/
structure Harmless (f : AccountDeployment Y) (frame : Frame Message)
    (before after : World (Chain (Storage × Y))) (body : Chain.Trace (Storage × Y)) : Prop where
  message : ¬Executes (FalconSimpleAccount.decodeMessage f.accountCfg frame.message)
  writes : ∀ before after, .sstore before after ∉ body
  calls : ∀ callee before after ok ret body', .call callee before after ok ret body' ∈ body →
    callee.self = f.entryPoint
  balance : before.ledger.balance f.account ≤ after.ledger.balance f.account

section

variable {f : AccountDeployment Y} {n : Nat} {frame : Frame Message} {s : State (Chain (Storage × Y))}
  {t : Chain.Trace (Storage × Y)}

/-- A call of an account that has not been upgraded. -/
theorem invoke_account_effect (hself : frame.self = f.account)
    (hok : (invoke f.system n frame s).ok = true) (hnot : (accountOf s.world).upgradedTo = none)
    : ∃ ledger t, s.world.ledger.transfer frame.caller frame.self frame.value = some ledger
        ∧ (invoke f.system n frame s).body = .enter { s.world with ledger := ledger } :: t
        ∧ Leads { s.world with ledger := ledger } t (invoke f.system n frame s).state.world
        ∧ FalconSimpleAccount.Effect f.accountCfg accountPart frame (accountOf s.world)
            (FalconSimpleAccount.decodeMessage f.accountCfg frame.message) (invoke f.system n frame s).data
            t := by
  obtain ⟨m, _, ledger, t, htransfer, hrun, hbody⟩ := invoke_account hself hok
  unfold accountCode at hrun
  rw [hnot] at hrun
  have heffect := FalconSimpleAccount.dispatch_effect hrun
  exact ⟨ledger, t, htransfer, hbody, hrun.leads, heffect⟩

/-- When asked for a value or sent a deposit, the entry point sends nothing on. -/
theorem invoke_entryPoint_ledger (hself : frame.self = f.entryPoint)
    (hmessage : (∃ account, frame.message = .depositTo account)
      ∨ ∃ view, frame.message = .entryPointView view)
    (hok : (invoke f.system n frame s).ok = true)
    : s.world.ledger.transfer frame.caller frame.self frame.value
        = some (invoke f.system n frame s).state.world.ledger := by
  obtain ⟨w, t, _, hbody, heffect⟩ := Deployment.invoke_effect (d := f.deployment) hself hok
  apply invoke_ledger f.system hok
  intro e he before after hmove
  rw [hbody] at he
  rcases List.mem_cons.mp he with rfl | he
  . cases hmove
  rcases hmessage with ⟨account, hmessage⟩ | ⟨view, hmessage⟩
  . rw [hmessage] at heffect
    change Deployment.Effect f.deployment frame (.depositTo account) t at heffect
    cases heffect with
    | deposit =>
      rcases List.mem_cons.mp he with rfl | he
      . cases hmove
        rfl
      . rw [List.mem_singleton.mp he] at hmove
        cases hmove
    | bundle h => cases h
  . rw [hmessage] at heffect
    change Deployment.Effect f.deployment frame (.entryPointView view) t at heffect
    cases heffect with
    | view => exact absurd he List.not_mem_nil
    | deposit h => rcases h with h | ⟨h, _⟩ <;> cases h
    | bundle h => cases h

/-- A call that only passes on a part of its own value costs the account nothing. -/
theorem harmless_of_passing {ledger : Ledger} {callee : Frame Message}
    {before after : World (Chain (Storage × Y))} {ret : ReturnData} {body : Chain.Trace (Storage × Y)}
    (hself : frame.self = f.account) (hcaller : frame.caller ≠ f.account)
    (hopen : ¬Executes (FalconSimpleAccount.decodeMessage f.accountCfg frame.message))
    (htransfer : s.world.ledger.transfer frame.caller frame.self frame.value = some ledger)
    (hbody : (invoke f.system n frame s).body
      = [.enter { s.world with ledger := ledger }, .call callee before after true ret body])
    (hleads : Leads { s.world with ledger := ledger } [.call callee before after true ret body]
      (invoke f.system n frame s).state.world)
    (hcallee : callee.self = f.entryPoint) (hvalue : callee.value ≤ frame.value)
    (hmessage : (∃ account, callee.message = .depositTo account)
      ∨ ∃ view, callee.message = .entryPointView view)
    : Harmless f frame s.world (invoke f.system n frame s).state.world (invoke f.system n frame s).body := by
  refine ⟨hopen, ?_, ?_, ?_⟩
  . rw [hbody]
    intro before after he
    simp at he
  . rw [hbody]
    intro callee' before after ok ret body' he
    simp only [List.mem_cons, reduceCtorEq, false_or, List.not_mem_nil, or_false] at he
    cases he
    exact hcallee
  . have hcall : .call callee before after true ret body ∈ (invoke f.system n frame s).body := by
      rw [hbody]
      exact List.mem_cons_of_mem _ (List.mem_singleton_self _)
    -- what arrives with the call is at least what leaves with the call of the entry point
    obtain ⟨hframe, _, m, _, s1, s2, hinvoke, rfl, rfl⟩ := invoke_call f.system hcall
    have hpassed := invoke_entryPoint_ledger (n := m) (s := s1) hcallee hmessage (by rw [hinvoke])
    rw [hinvoke] at hpassed
    have hreceived := Ledger.transfer_balance htransfer f.account
    have hpaid := Ledger.transfer_balance hpassed f.account
    rw [hself, if_neg hcaller.symm, if_pos rfl] at hreceived
    rw [hframe, hself, if_pos rfl, hcallee, if_neg f.account_ne_entryPoint] at hpaid
    obtain ⟨hfirst, hlast⟩ := hleads.of_singleton .call
    rw [← hlast]
    rw [hfirst] at hpaid
    dsimp only at hpaid
    omega

/-- The case of `invoke_harmless` for a message that `Effect` is about. -/
theorem harmless_of_effect {ledger : Ledger} {message : Message} {ret : ReturnData}
    (hself : frame.self = f.account) (hinit : Initialised f.accountCfg (accountOf s.world))
    (hcaller : frame.caller ≠ f.account)
    (htransfer : s.world.ledger.transfer frame.caller frame.self frame.value = some ledger)
    (hbody : (invoke f.system n frame s).body = .enter { s.world with ledger := ledger } :: t)
    (hleads : Leads { s.world with ledger := ledger } t (invoke f.system n frame s).state.world)
    (heffect : FalconSimpleAccount.Effect f.accountCfg accountPart frame (accountOf s.world) message ret t)
    (hmessage : FalconSimpleAccount.decodeMessage f.accountCfg frame.message = message)
    : Harmless f frame s.world (invoke f.system n frame s).state.world (invoke f.system n frame s).body
        ∨ frame.caller = (accountOf s.world).slots.owner
        ∨ frame.caller = f.entryPoint
          ∧ (Executes message ∨ ∃ op userOpHash missing, message = .validateUserOp op userOpHash missing) := by
  have hep := f.accountCfg_entryPoint
  have hopen (h : Guarded message = false)
      : ¬Executes (FalconSimpleAccount.decodeMessage f.accountCfg frame.message) := by
    rw [hmessage]
    intro h'
    rw [h'.guarded] at h
    cases h
  cases heffect with
  | quiet h =>
    refine .inl ⟨hopen h, ?_, ?_, ?_⟩
    . rw [hbody]
      intro before after he
      cases List.mem_singleton.mp he
    . rw [hbody]
      intro callee before after ok ret body' he
      cases List.mem_singleton.mp he
    . have hreceived := Ledger.transfer_balance htransfer f.account
      rw [hself, if_neg hcaller.symm, if_pos rfl] at hreceived
      rw [hleads.of_nil]
      dsimp only
      omega
  | view h =>
    exact .inl (harmless_of_passing hself hcaller (hopen h) htransfer hbody hleads hep (Nat.zero_le _)
      (.inr ⟨_, rfl⟩))
  | addDeposit =>
    exact .inl (harmless_of_passing hself hcaller (hopen rfl) htransfer hbody hleads hep (Nat.le_refl _)
      (.inl ⟨_, rfl⟩))
  -- every other function has let its caller through
  | execute hexecutes hallowed =>
    rcases hallowed with hallowed | hallowed
    . exact .inr (.inr ⟨hallowed.trans hep, .inl hexecutes⟩)
    . exact .inr (.inl hallowed)
  | validateUserOp hallowed => exact .inr (.inr ⟨hallowed.trans hep, .inr ⟨_, _, _, rfl⟩⟩)
  | initializeAccount hinitializable =>
    rw [hinit.initializer] at hinitializable
    cases hinitializable
  | withdrawDepositTo hallowed | upgradeToAndCall hallowed =>
    exact .inr (.inl (hallowed.resolve_right fun h => hcaller (h.trans hself)))

/-- Who is neither the owner nor the entry point nor the account can only make harmless calls. -/
theorem invoke_harmless (hself : frame.self = f.account) (hok : (invoke f.system n frame s).ok = true)
    (hinit : Initialised f.accountCfg (accountOf s.world)) (hcaller : frame.caller ≠ f.account)
    : Harmless f frame s.world (invoke f.system n frame s).state.world (invoke f.system n frame s).body
        ∨ frame.caller = (accountOf s.world).slots.owner
        ∨ frame.caller = f.entryPoint
          ∧ (Executes (FalconSimpleAccount.decodeMessage f.accountCfg frame.message)
            ∨ ∃ op userOpHash missing, FalconSimpleAccount.decodeMessage f.accountCfg frame.message
              = .validateUserOp op userOpHash missing) := by
  obtain ⟨ledger, t, htransfer, hbody, hleads, heffect⟩ := invoke_account_effect hself hok hinit.upgradedTo
  exact harmless_of_effect hself hinit hcaller htransfer hbody hleads heffect rfl

/-- An account that is asked about an operation asks its verifier. -/
theorem invoke_validates {op : PackedUserOperation} {userOpHash : Word} {missing : Nat}
    (hself : frame.self = f.account) (hok : (invoke f.system n frame s).ok = true)
    (hnot : (accountOf s.world).upgradedTo = none)
    (hmessage : frame.message = .validateUserOp op userOpHash missing)
    : ∃ sig success before after ret body, decodeSignature op.signature = some sig
        ∧ ret.decodeBool = some success
        ∧ (invoke f.system n frame s).data = .words [if success then FalconSimpleAccount.SIG_VALIDATION_SUCCESS
            else FalconSimpleAccount.SIG_VALIDATION_FAILED]
        ∧ .call ⟨(accountOf s.world).slots.falcon, f.account, 0, .verify (Abi.wordBytes userOpHash.toNat) sig
            (accountOf s.world).slots.publicKey, frame.env⟩ before after true ret body
          ∈ (invoke f.system n frame s).body := by
  obtain ⟨ledger, t, _, hbody, _, heffect⟩ := invoke_account_effect hself hok hnot
  rw [hmessage] at heffect
  change FalconSimpleAccount.Effect f.accountCfg accountPart frame _ (.validateUserOp op userOpHash missing)
    _ t at heffect
  generalize (invoke f.system n frame s).data = data at heffect ⊢
  rw [hbody]
  rw [← hself]
  cases heffect with
  | quiet h => cases h
  | view h => cases h
  | execute h => cases h
  | validateUserOp _ hsig hsuccess _ =>
    exact ⟨_, _, _, _, _, _, hsig, hsuccess, rfl, List.mem_cons_of_mem _ List.mem_cons_self⟩

/-- The validation data of a signature that is wrong. -/
theorem getValidationData_failed {timestamp validationData : Nat}
    (h : (ReturnData.words [FalconSimpleAccount.SIG_VALIDATION_FAILED]).decodeWord = some validationData)
    : (EntryPoint.getValidationData timestamp validationData).1 = 1 := by
  have hword : (ReturnData.words [FalconSimpleAccount.SIG_VALIDATION_FAILED]).decodeWord = some 1 := by
    decide
  rw [hword] at h
  cases h
  rfl

end

end AccountDeployment
