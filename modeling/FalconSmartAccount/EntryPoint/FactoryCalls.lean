import FalconSmartAccount.EntryPoint.SenderCreation

/-!
The calls of factories that are not taken back: one for each operation that creates its sender, and no
other.
-/

open Evm

namespace ReturnData

theorem decodeAddress_words {w : Nat} (hw : w < 2 ^ 160)
    : (ReturnData.words [w]).decodeAddress = some (BitVec.ofNat 160 w) := by
  have hword : w < Yul.wordSize := by
    apply Nat.lt_trans hw
    norm_num [Yul.wordSize]
  have hbytes : (ReturnData.words [w]).toBytes = Abi.wordBytes w := List.append_nil _
  have hdecode : (ReturnData.words [w]).decodeWord = some w := by
    unfold decodeWord
    rw [hbytes]
    rw [Abi.wordBytes_length]
    rw [if_pos (Nat.le_refl 32)]
    rw [Abi.wordAt_wordBytes hword]
  unfold decodeAddress
  rw [hdecode]
  apply if_pos hw

end ReturnData

namespace Deployment

open EntryPoint

variable {X : Type}

/-- The event is the call of the factory that creates the sender of `op`. -/
def CreatesSender (d : Deployment X) (env : Env) (op : PackedUserOperation)
    (e : Event (Chain X) Message ReturnData Log) : Prop :=
  ∃ before after ret body,
    e = .call (SenderCreator.factoryFrame d.cfg.senderCreator op.initCode env) before after true ret body
      ∧ ¬d.Deployed before op.sender ∧ d.Deployed after op.sender
      ∧ Abi.wordAt ret.toBytes 0 % 2 ^ 160 = op.sender.toNat

variable {d : Deployment X} {msg frame callee : Frame Message} {s : State (Chain X)} {t body : Chain.Trace X}
  {before after w : World (Chain X)} {ok : Bool} {ret : ReturnData} {op : PackedUserOperation}
  {opInfo : UserOpInfo} {depth n : Nat} {tx : Transaction Message}

/-! ## The calls of the entry point -/

/-- The entry point makes a call of the `SenderCreator` to have a sender created. The factory does it. -/
theorem SenderCreated.factory {e : Event (Chain X) Message ReturnData Log} (h : SenderCreated d frame op t)
    (he : e ∈ t) (hmem : e ∈ (invoke d.system n frame s).body)
    (hcall : e = .call callee before after ok ret body)
    : op.initCode.length ≠ 0 ∧ ok = true
      ∧ callee = ⟨d.cfg.senderCreator, frame.self, 0, .createSender op.initCode, frame.env⟩
      ∧ ∃ w e', body = [.enter w, e'] ∧ d.CreatesSender frame.env op e' := by
  cases h with
  | none => cases he
  | @creates before' after' ret' body' hinit hbefore hafter hdecode hzero =>
    rcases List.mem_cons.mp he with rfl | he
    . obtain ⟨_, _, m, _, s1, s2, hinvoke, hworld1, hworld2⟩ := invoke_call d.system hmem
      cases hcall
      obtain ⟨initCode, w', before1, after1, ok1, ret1, body1, hmessage, _, hbody, hstart, hend, hdata⟩ :=
        invoke_senderCreator (n := m) (s := s1) rfl (by rw [hinvoke])
      cases hmessage
      rw [hinvoke] at hbody hend hdata
      dsimp only at hbody hend hdata
      rw [hdata] at hdecode
      refine ⟨hinit, rfl, rfl, w', _, hbody, before1, after1, ret1, body1, ?_, ?_, ?_, ?_⟩
      . cases ok1 with
        | true => rfl
        | false =>
          rw [if_neg Bool.false_ne_true] at hdecode
          rw [ReturnData.decodeAddress_words (by norm_num)] at hdecode
          exact absurd (Option.some.inj hdecode).symm hzero
      . unfold Deployed
        rw [hstart]
        rw [hworld1]
        apply hbefore
      . unfold Deployed
        rw [hend]
        rw [hworld2]
        apply hafter
      . have hlt : Abi.wordAt ret1.toBytes 0 % 2 ^ 160 < 2 ^ 160 := Nat.mod_lt _ (by norm_num)
        cases ok1 with
        | true =>
          rw [if_pos rfl] at hdecode
          rw [ReturnData.decodeAddress_words hlt] at hdecode
          rw [← Option.some.inj hdecode]
          rw [BitVec.toNat_ofNat]
          apply (Nat.mod_eq_of_lt hlt).symm
        | false =>
          rw [if_neg Bool.false_ne_true] at hdecode
          rw [ReturnData.decodeAddress_words (by norm_num)] at hdecode
          exact absurd (Option.some.inj hdecode).symm hzero
    . rw [List.mem_singleton.mp he] at hcall
      cases hcall

/-- The entry point sends plain calldata to the account in an inner call, and otherwise only currency. -/
theorem Effect.calldata {message : Message} {data : Bytes} (h : Effect d msg message t)
    (hcall : .call callee before after ok ret body ∈ t) (hdata : callee.message = .bytes data)
    : data = [] ∨ ∃ callData opInfo context, message = .innerHandleOp callData opInfo context
        ∧ callee.self = opInfo.mUserOp.sender := by
  cases h with
  | bundle _ hbundle _ =>
    cases hbundle.bundling _ hcall with
    | check => cases hdata
    | validating _ hop _ he => cases hop.events _ he <;> cases hdata
    | inner => cases hdata
    | compensate =>
      cases hdata
      exact .inl rfl
  | @inner callData opInfo context _ _ ta tp ts _ haccount hpost hsettled =>
    refine .inr ⟨callData, opInfo, context, rfl, ?_⟩
    rcases List.mem_append.mp hcall with hcall | hcall
    . rcases List.mem_append.mp hcall with hcall | hcall
      . cases haccount with
        | none => cases hcall
        | call =>
          cases List.mem_singleton.mp hcall
          rfl
        | reason =>
          rcases List.mem_cons.mp hcall with heq | hcall
          . cases heq
            rfl
          . cases List.mem_singleton.mp hcall
      . cases hpost with
        | none => cases hcall
        | call =>
          cases List.mem_singleton.mp hcall
          cases hdata
    . cases hsettled <;> simp at hcall
  | withdrawStake | withdrawTo =>
    simp only [List.mem_cons, List.not_mem_nil, or_false, reduceCtorEq, false_or] at hcall
    cases hcall
    cases hdata
    exact .inl rfl
  | _ => simp at hcall

/-- Nobody can be the `SenderCreator` and agree to an operation. -/
theorem Validated.sender_ne_senderCreator {aggregator : Address} {w : World (Chain X)}
    (h : Validated d frame aggregator op opInfo t)
    (hbody : (invoke d.system n frame s).body = .enter w :: t)
    : opInfo.mUserOp.sender ≠ d.cfg.senderCreator := by
  obtain ⟨missing, ret, validationData, ⟨before, after, body, hcall⟩, _⟩ := h.account
  rw [(copyUserOpToMemory_eq h.mUserOp).1]
  intro hsender
  have hcall' := List.mem_cons_of_mem (.enter w) hcall
  rw [← hbody] at hcall'
  obtain ⟨_, _, m, _, s1, s2, hinvoke, _⟩ := invoke_call d.system hcall'
  obtain ⟨initCode, _, _, _, _, _, _, hmessage, _⟩ :=
    invoke_senderCreator (n := m) (s := s1) hsender (by rw [hinvoke])
  cases hmessage

/-- No inner call that is not taken back is for the `SenderCreator`. -/
theorem innerHandleOp_sender_ne {callData : CallData} {context : Bytes} (htx : tx.origin ≠ d.entryPoint)
    (hself : frame.self = d.entryPoint)
    (hmessage : decodeMessage d.cfg frame.message = .innerHandleOp callData opInfo context)
    (h : Committed (.call frame before after true ret body) (d.happens depth tx w))
    : opInfo.mUserOp.sender ≠ d.cfg.senderCreator := by
  obtain ⟨msg, before', after', ret', w', t, opas, beneficiary, opInfos, costs, n, hmsg, _, _, hbundle, hmem, _⟩ :=
    committed_innerHandleOp htx hself hmessage h
  obtain ⟨_, m, s1, hok, _, _, _, hbody⟩ := hmsg.invoked d.system
  cases hbundle.bundling _ hmem with
  | check => cases hmessage
  | compensate =>
    cases hmessage
  | validating _ hop _ he =>
    have hinner := (hop.events _ he).innerCall
    rw [innerCall_eq hself hmessage] at hinner
    cases hinner
  | inner hzip =>
    cases hmessage
    exact (List.forall₂_zip hbundle.validated hzip).sender_ne_senderCreator hbody

/-- A call of the `SenderCreator` that is not taken back creates the sender of an operation. -/
theorem committed_senderCreator (htx : tx.origin ≠ d.entryPoint) (hempty : d.cfg.abiDecode [] = none)
    (hself : callee.self = d.cfg.senderCreator)
    (h : Committed (.call callee before after true ret body) (d.happens depth tx w))
    : ∃ frame before' after' ret' body' op t,
        Committed (.call frame before' after' true ret' body') (d.happens depth tx w)
        ∧ .call callee before after true ret body ∈ body' ∧ frame.self = d.entryPoint
        ∧ op ∈ d.opsOf frame ∧ SenderCreated d frame op t ∧ .call callee before after true ret body ∈ t := by
  obtain ⟨_, m, s1, hok, _, _, _, _⟩ := h.invoked d.system
  obtain ⟨initCode, _, _, _, _, _, _, hmessage, hcaller, _⟩ := invoke_senderCreator hself hok
  rcases h.frame with hmem | ⟨frame, before', after', ret', body', hframe, hmem⟩
  . injection List.mem_singleton.mp hmem with heq
    rw [heq] at hcaller
    exact absurd hcaller htx
  obtain ⟨_, m', s2, hok', _, _, _, hbody⟩ := hframe.invoked d.system
  rw [← hbody] at hmem
  obtain ⟨hparent, _⟩ := invoke_call d.system hmem
  have hentry : frame.self = d.entryPoint := hparent.symm.trans hcaller
  -- the argument is given as such, for what is decoded is sent to accounts only
  have hargument : callee.message = .createSender initCode := by
    unfold SenderCreator.decodeMessage at hmessage
    split at hmessage
    . next data hdata =>
      obtain ⟨w', t, _, hstart, heffect⟩ := invoke_effect hentry hok'
      rw [hstart] at hmem
      have hcall := (List.mem_cons.mp hmem).resolve_left fun h => by cases h
      rcases heffect.calldata hcall hdata with hnil | ⟨callData, opInfo, context, hinner, hsender⟩
      . rw [hnil] at hmessage
        rw [hempty] at hmessage
        cases hmessage
      . rw [hself] at hsender
        exact absurd hsender.symm (innerHandleOp_sender_ne htx hentry hinner hframe)
    . exact hmessage
  have hcreates : creates (.call callee before after true ret body) = true := by
    obtain ⟨target, caller, value, message, env⟩ := callee
    cases hargument
    rfl
  have hcreated := invoke_created hentry hok'
  obtain ⟨op, hop, t, hsender, he⟩ := hcreated.of_mem (List.mem_filter.mpr ⟨hmem, hcreates⟩)
  rw [hbody] at hmem
  exact ⟨frame, before', after', ret', body', op, t, hframe, hmem, hentry, hop, hsender, he⟩

/-! ## The calls of factories -/

/-- Each operation that names a factory, in a bundle that is not taken back, has its sender created by a
call of this factory. The `SenderCreator` makes no other call that is not taken back, so a factory that
only listens to it is never called for an account that is deployed. -/
theorem factories_called (htx : tx.origin ≠ d.entryPoint) (hcreator : tx.origin ≠ d.cfg.senderCreator)
    (hempty : d.cfg.abiDecode [] = none)
    : (∀ bundle before after ret body op,
        Committed (.call bundle before after true ret body) (d.happens depth tx w) → op ∈ d.opsOf bundle →
        op.initCode.length ≠ 0 → ∃ e, d.CreatesSender bundle.env op e ∧ Committed e body)
      ∧ ∀ callee before after ok ret body, callee.caller = d.cfg.senderCreator →
        Committed (.call callee before after ok ret body) (d.happens depth tx w) →
          ∃ bundle before' after' ret' body' op,
            Committed (.call bundle before' after' true ret' body') (d.happens depth tx w)
            ∧ op ∈ d.opsOf bundle ∧ op.initCode.length ≠ 0
            ∧ d.CreatesSender bundle.env op (.call callee before after ok ret body) := by
  constructor
  . intro bundle before after ret body op hbundle hop hinit
    obtain ⟨_, m, s, hok, _, _, _, hbody⟩ := hbundle.invoked d.system
    -- only a frame of the entry point has operations
    have hself : bundle.self = d.entryPoint := by
      by_contra hother
      rw [opsOf_other hother] at hop
      cases hop
    obtain ⟨t, hcreated, hmem⟩ := (invoke_created hself hok).of_op hop
    have hcreated' := hcreated
    cases hcreated with
    | none hnone => exact absurd hnone hinit
    | creates =>
      have he := (List.mem_filter.mp (hmem _ List.mem_cons_self)).1
      obtain ⟨_, _, _, w, e, hinside, hcreates⟩ := hcreated'.factory List.mem_cons_self he rfl
      refine ⟨e, hcreates, ?_⟩
      rw [hbody] at he
      apply Committed.inside he
      apply Committed.here
      rw [hinside]
      apply List.mem_cons_of_mem _ List.mem_cons_self
  . intro callee before after ok ret body hcaller h
    rcases h.frame with hmem | ⟨parent, before', after', ret', body', hparent, hmem⟩
    . injection List.mem_singleton.mp hmem with heq
      rw [heq] at hcaller
      exact absurd hcaller hcreator
    obtain ⟨_, m, s, _, _, _, _, hbody⟩ := hparent.invoked d.system
    have hmem' := hmem
    rw [← hbody] at hmem'
    obtain ⟨hself, _⟩ := invoke_call d.system hmem'
    -- the caller is the `SenderCreator`, which the entry point has called in a bundle
    obtain ⟨bundle, before1, after1, ret1, body1, op, t, hbundle, hcall, _, hop, hcreated, he⟩ :=
      committed_senderCreator htx hempty (hself.symm.trans hcaller) hparent
    obtain ⟨_, m', s', _, _, _, _, hbody1⟩ := hbundle.invoked d.system
    rw [← hbody1] at hcall
    obtain ⟨hinit, _, _, w', e, hinside, hcreates⟩ := hcreated.factory he hcall rfl
    rw [hinside] at hmem
    have heq : .call callee before after ok ret body = e := by
      rcases List.mem_cons.mp hmem with heq | hmem
      . cases heq
      . exact List.mem_singleton.mp hmem
    rw [heq]
    exact ⟨bundle, before1, after1, ret1, body1, op, hbundle, hop, hinit, hcreates⟩

/-! ### An account and its factory -/

/-- The factory deploys an account, whose code agrees to everything. -/
def deploying (msg : Frame Message) : Prog Bool Message ReturnData Log ReturnData :=
  match msg.message with
  | .validateUserOp _ _ _ => pure (.words [0])
  | _ => do
    Prog.sstore fun _ => true
    return .words [7]

/-- The factory at `8` deploys the account at `7`. -/
def factorySample : Deployment Bool where
  cfg := EntryPoint.openZeppelin 31337 1 2 fun _ => none
  entryPoint := 1
  entryPoint_ne := sample.entryPoint_ne
  code x a := if a = 8 ∨ a = 7 ∧ x then some deploying else none
  codeLength x a := if a = 8 ∨ a = 7 ∧ x then 1 else 0
  delegate _ _ := none
  clearTransient := id

def undeployedWorld : World (Chain Bool) := ⟨sampleLedger, ⟨genesis, false⟩⟩

/-- Someone deposits for the account that is not deployed yet. -/
def prepayTx : Transaction Message := ⟨6, 1, 1000, 1000000, .depositTo 7, freeEnv 1⟩

def prepaidWorld : World (Chain Bool) := (execute factorySample.system 2 prepayTx undeployedWorld).state.world

def creatingOp : PackedUserOperation := { sampleOp 7 with initCode := List.replicate 19 0 ++ [8] }

theorem factories_called_creatingOp
    : ∃ bundle before after ret body e,
        Committed (.call bundle before after true ret body)
          (factorySample.happens 5 (bundleTx (.handleOps [creatingOp] 5)) prepaidWorld)
        ∧ factorySample.CreatesSender bundle.env creatingOp e ∧ Committed e body := by
  have hok : (execute factorySample.system 5 (bundleTx (.handleOps [creatingOp] 5)) prepaidWorld).ok = true := by
    decide +kernel
  obtain ⟨before, after, ret, body, hmem⟩ := exists_mem_happens hok
  have hbundle := Committed.here hmem
  have hop : creatingOp ∈ factorySample.opsOf (bundleTx (.handleOps [creatingOp] 5)).frame := by
    apply List.mem_cons_self
  obtain ⟨e, hcreates, he⟩ := (factories_called (by decide) (by decide) rfl).1 _ before after ret body
    creatingOp hbundle hop (by decide)
  exact ⟨_, before, after, ret, body, e, hbundle, hcreates, he⟩

end Deployment
