import FalconSmartAccount.Account.FalconSimpleAccount
import FalconSmartAccount.Evm.Operations

/-!
What each function of the account leaves in its trace, if it returns.
-/

open Evm

namespace FalconSimpleAccount

/-- The messages whose functions run `_call`. -/
inductive Executes : Message → Prop where
  | execute {dest value func} : Executes (.account (.execute dest value func))
  | executeBatch {dest value func} : Executes (.account (.executeBatch dest value func))

/-- The messages whose functions check who calls, or whether they have been called before. -/
def Guarded : Message → Bool
  | .validateUserOp _ _ _ => true
  | .account (.execute _ _ _) | .account (.executeBatch _ _ _) => true
  | .account (.initializeAccount _ _ _) => true
  | .account (.withdrawDepositTo _ _) | .account (.upgradeToAndCall _ _) => true
  | _ => false

theorem Executes.guarded {message : Message} (h : Executes message) : Guarded message = true := by
  cases h <;> rfl

variable {T : Type}

/-- The trace of a call of the account, which has the storage `s` when the call starts. -/
inductive Effect (cfg : Config) (l : Lens T Storage) (msg : Frame Message) (s : Storage)
    : Message → ReturnData → List (Event T Message ReturnData Log) → Prop where
  | quiet {message ret} : Guarded message = false → Effect cfg l msg s message ret []
  | view {message ret view before after ret' body} :
      Guarded message = false →
      Effect cfg l msg s message ret
        [.call ⟨cfg.entryPoint, msg.self, 0, .entryPointView view, msg.env⟩ before after true ret' body]
  | addDeposit {ret before after ret' body} :
      Effect cfg l msg s (.account .addDeposit) ret
        [.call ⟨cfg.entryPoint, msg.self, msg.value, .depositTo msg.self, msg.env⟩ before after true
          ret' body]
  | execute {message ret t} :
      Executes message → msg.caller = cfg.entryPoint ∨ msg.caller = s.slots.owner →
      (∀ before after, .sstore before after ∉ t) →
      Effect cfg l msg s message ret t
  | validateUserOp {op userOpHash missing sig success before after ret body t} :
      msg.caller = cfg.entryPoint → decodeSignature op.signature = some sig →
      ret.decodeBool = some success → (∀ before after, .sstore before after ∉ t) →
      Effect cfg l msg s (.validateUserOp op userOpHash missing)
        (.words [if success then SIG_VALIDATION_SUCCESS else SIG_VALIDATION_FAILED])
        (.call ⟨s.slots.falcon, msg.self, 0,
            .verify (Abi.wordBytes userOpHash.toNat) sig s.slots.publicKey, msg.env⟩ before after true ret
            body :: t)
  | initializeAccount {anOwner aPublicKey falconVerifier initializable ret before} :
      cfg.initializer s.slots.initializable = some initializable → l.get before.storage = s →
      Effect cfg l msg s (.account (.initializeAccount anOwner aPublicKey falconVerifier)) ret
        [.sstore before (before.write l fun s =>
            { s with slots :=
                { s.slots with
                  owner := anOwner
                  publicKey := aPublicKey
                  falcon := falconVerifier
                  initializable } }),
          .log (.falconSimpleAccountInitialized cfg.entryPoint anOwner)]
  | withdrawDepositTo {withdrawAddress amount ret t} :
      msg.caller = s.slots.owner ∨ msg.caller = msg.self → (∀ before after, .sstore before after ∉ t) →
      Effect cfg l msg s (.account (.withdrawDepositTo withdrawAddress amount)) ret t
  | upgradeToAndCall {newImplementation data ret t} :
      msg.caller = s.slots.owner ∨ msg.caller = msg.self →
      (∀ before after, .sstore before after ∈ t → (l.get after.storage).upgradedTo ≠ none) →
      Effect cfg l msg s (.account (.upgradeToAndCall newImplementation data)) ret t

/-! ## Functions that do not write -/

/-- The operation does not write to the storage. -/
def Reads (o : Op Storage Message ReturnData Log) : Prop := ∀ f, o ≠ .sstore f

section

variable (cfg : Config) (msg : Frame Message)

theorem callFunction_does (target : Address) (value : Nat) (message : Message)
    : (callFunction target value message).Does Reads :=
  .bind (.op nofun) fun _ => .bind .require fun _ => .ret

theorem call_does (target : Address) (value : Nat) (data : Bytes) : (call target value data).Does Reads :=
  .bind (callFunction_does _ _ _) fun _ => .ret

theorem requireFromEntryPointOrOwner_does : (requireFromEntryPointOrOwner cfg msg).Does Reads :=
  .bind (.op nofun) fun _ => .require

theorem execute_does (dest : Address) (value : Nat) (func : Bytes)
    : (execute cfg msg dest value func).Does Reads :=
  .bind (requireFromEntryPointOrOwner_does cfg msg) fun _ => .bind (call_does _ _ _) fun _ => .ret

theorem executeBatch_does (dest : List Address) (value : List Nat) (func : List Bytes)
    : (executeBatch cfg msg dest value func).Does Reads := by
  refine .bind (requireFromEntryPointOrOwner_does cfg msg) fun _ => .bind .require fun _ => ?_
  split
  . exact .bind (.forM fun _ => call_does _ _ _) fun _ => .ret
  . exact .bind (.forM fun _ => call_does _ _ _) fun _ => .ret

theorem payPrefund_does (missingAccountFunds : Nat) : (payPrefund msg missingAccountFunds).Does Reads := by
  unfold payPrefund
  split
  . exact .bind (.op nofun) fun _ => .ret
  . exact .ret

theorem withdrawDepositTo_does (withdrawAddress : Address) (amount : Nat)
    : (withdrawDepositTo cfg msg withdrawAddress amount).Does Reads := by
  refine .bind (.bind (.op nofun) fun _ => .require) fun _ => .bind ?_ fun _ => .ret
  exact .bind (.op nofun) fun _ => .bind .require fun _ => .bind (callFunction_does _ _ _) fun _ => .ret

end

/-! ## Functions that return -/

section

variable {cfg : Config} {msg : Frame Message} {sys : System T Message ReturnData Log}
  {inv : Frame Message → State T → Reply T Message ReturnData Log} {l : Lens T Storage} {s s' : State T}
  {t : List (Event T Message ReturnData Log)} {ret : ReturnData} {α β : Type}

theorem Reads.not_sstore {p : Code α} {a : α} (h : Returns sys inv msg l p s a s' t) (hp : p.Does Reads)
    (before after : World T)
    : .sstore before after ∉ t := by
  intro he
  obtain ⟨f, hf, _⟩ := h.sstores hp he
  exact hf f rfl

theorem bind_getOrRevert {data : ReturnData} {o : Option α} {f : α → Code β} {b : β}
    (h : Returns sys inv msg l (getOrRevert data o >>= f) s b s' t)
    : ∃ a, o = some a ∧ Returns sys inv msg l (f a) s b s' t := by
  cases o with
  | none =>
    obtain ⟨_, _, _, _, h, _, _⟩ := h.bind
    exact absurd h Returns.not_revert
  | some a => exact ⟨a, rfl, h⟩

theorem callFunction_returns {target : Address} {value : Nat} {message : Message}
    (h : Returns sys inv msg l (callFunction target value message) s ret s' t)
    : ∃ before after body, t = [.call ⟨target, msg.self, value, message, msg.env⟩ before after true ret
        body] := by
  obtain ⟨r, s1, s2, s3, body, t1, _, _, _, ht, h⟩ := h.bind_call
  obtain ⟨hsuccess, h⟩ := h.bind_require
  obtain ⟨hret, _, ht1⟩ := h.pure
  rw [ht, ht1, hsuccess, hret]
  exact ⟨_, _, _, rfl⟩

theorem callProcedure_returns {target : Address} {value : Nat} {message : Message} {u : Unit}
    (h : Returns sys inv msg l (callProcedure target value message) s u s' t)
    : ∃ before after ret body, t = [.call ⟨target, msg.self, value, message, msg.env⟩ before after true ret
        body] := by
  obtain ⟨s1, _, h⟩ := h.bind_codeLength
  obtain ⟨_, h⟩ := h.bind_require
  obtain ⟨ret, s2, t1, t2, h1, h, ht⟩ := h.bind
  obtain ⟨before, after, body, ht1⟩ := callFunction_returns h1
  obtain ⟨_, _, ht2⟩ := h.pure
  rw [ht, ht1, ht2]
  exact ⟨before, after, ret, body, rfl⟩

theorem requireFromEntryPointOrOwner_returns {f : Unit → Code β} {b : β}
    (h : Returns sys inv msg l (requireFromEntryPointOrOwner cfg msg >>= f) s b s' t)
    : msg.caller = cfg.entryPoint ∨ msg.caller = (l.get s.world.storage).slots.owner := by
  obtain ⟨_, s1, t1, t2, h1, _, _⟩ := h.bind
  obtain ⟨s2, _, h1⟩ := h1.bind_sload
  obtain ⟨hcaller, _, _⟩ := h1.require
  rw [Bool.or_eq_true, beq_iff_eq, beq_iff_eq] at hcaller
  exact hcaller

theorem onlyOwner_returns {f : Unit → Code β} {b : β}
    (h : Returns sys inv msg l (onlyOwner msg >>= f) s b s' t)
    : (msg.caller = (l.get s.world.storage).slots.owner ∨ msg.caller = msg.self)
        ∧ ∃ s1, Returns sys inv msg l (f ()) s1 b s' t := by
  obtain ⟨_, s1, t1, t2, h1, h, ht⟩ := h.bind
  obtain ⟨s2, _, h1⟩ := h1.bind_sload
  obtain ⟨hcaller, _, ht1⟩ := h1.require
  rw [Bool.or_eq_true, beq_iff_eq, beq_iff_eq] at hcaller
  rw [ht1, List.nil_append] at ht
  rw [ht]
  exact ⟨hcaller, s1, h⟩

theorem validateSignature_returns {userOp : PackedUserOperation} {userOpHash : Word} {validationData : Nat}
    (h : Returns sys inv msg l (validateSignature userOp userOpHash) s validationData s' t)
    : ∃ sig success before after ret body, decodeSignature userOp.signature = some sig
        ∧ ret.decodeBool = some success
        ∧ validationData = (if success then SIG_VALIDATION_SUCCESS else SIG_VALIDATION_FAILED)
        ∧ t = [.call ⟨(l.get s.world.storage).slots.falcon, msg.self, 0, .verify (Abi.wordBytes userOpHash.toNat)
            sig (l.get s.world.storage).slots.publicKey, msg.env⟩ before after true ret body] := by
  obtain ⟨sig, hsig, h⟩ := bind_getOrRevert h
  obtain ⟨s1, _, h⟩ := h.bind_sload
  obtain ⟨ret, s2, t1, t2, h1, h, ht⟩ := h.bind
  obtain ⟨before, after, body, ht1⟩ := callFunction_returns h1
  obtain ⟨success, hsuccess, h⟩ := bind_getOrRevert h
  obtain ⟨hdata, _, ht2⟩ := h.pure
  rw [ht, ht1, ht2]
  exact ⟨sig, success, before, after, ret, body, hsig, hsuccess, hdata, rfl⟩

theorem validateUserOp_returns {userOp : PackedUserOperation} {userOpHash : Word} {missing : Nat}
    (h : Returns sys inv msg l (validateUserOp cfg msg userOp userOpHash missing) s ret s' t)
    : Effect cfg l msg (l.get s.world.storage) (.validateUserOp userOp userOpHash missing) ret t := by
  obtain ⟨hcaller, h⟩ := h.bind_require
  obtain ⟨validationData, s1, t1, t2, h1, h, ht⟩ := h.bind
  obtain ⟨sig, success, before, after, ret', body, hsig, hsuccess, hdata, ht1⟩ := validateSignature_returns h1
  obtain ⟨_, s2, t3, t4, h2, h, ht2⟩ := h.bind
  obtain ⟨hret, _, ht4⟩ := h.pure
  rw [ht4, List.append_nil] at ht2
  rw [ht, ht1, ht2, hret, hdata]
  exact .validateUserOp (beq_iff_eq.mp hcaller) hsig hsuccess (Reads.not_sstore h2 (payPrefund_does _ _))

theorem view_returns {message : Message} {v : EntryPointView} (hmessage : Guarded message = false)
    (h : Returns sys inv msg l (view cfg v) s ret s' t)
    : Effect cfg l msg (l.get s.world.storage) message ret t := by
  obtain ⟨ret', s1, t1, t2, h1, h, ht⟩ := h.bind
  obtain ⟨before, after, body, ht1⟩ := callFunction_returns h1
  obtain ⟨value, _, h⟩ := bind_getOrRevert h
  obtain ⟨_, _, ht2⟩ := h.pure
  rw [ht, ht1, ht2]
  exact .view hmessage

theorem addDeposit_returns (h : Returns sys inv msg l (addDeposit cfg msg) s ret s' t)
    : Effect cfg l msg (l.get s.world.storage) (.account .addDeposit) ret t := by
  obtain ⟨_, s1, t1, t2, h1, h, ht⟩ := h.bind
  obtain ⟨before, after, ret', body, ht1⟩ := callProcedure_returns h1
  obtain ⟨_, _, ht2⟩ := h.pure
  rw [ht, ht1, ht2]
  exact .addDeposit

theorem initializeAccount_returns {anOwner falconVerifier : Address} {aPublicKey : List Nat}
    (h : Returns sys inv msg l (initializeAccount cfg anOwner aPublicKey falconVerifier) s ret s' t)
    : Effect cfg l msg (l.get s.world.storage)
        (.account (.initializeAccount anOwner aPublicKey falconVerifier)) ret t := by
  obtain ⟨s1, hw1, h⟩ := h.bind_sload
  obtain ⟨initializable, hinitializable, h⟩ := bind_getOrRevert h
  obtain ⟨s2, t2, _, ht, h⟩ := h.bind_sstore
  obtain ⟨s3, t3, _, ht2, h⟩ := h.bind_emit
  obtain ⟨_, _, ht3⟩ := h.pure
  rw [ht, ht2, ht3, hw1]
  exact .initializeAccount hinitializable rfl

/-- Whatever code an upgraded account has, it leaves the account upgraded. -/
theorem upgraded_sstore {p : Prog (Slots × Address) Message ReturnData Log α} {a : α}
    (h : Returns sys inv msg l (p.zoom upgradedPart.get upgradedPart.set) s a s' t)
    {before after : World T} (he : .sstore before after ∈ t)
    : (l.get after.storage).upgradedTo ≠ none := by
  unfold Returns at h
  rw [Prog.zoom_zoom] at h
  obtain ⟨f, _, hafter⟩ := Returns.sstores (l := l.comp upgradedPart) h (.any p) he
  rw [hafter]
  change (l.get (l.set _ _)).upgradedTo ≠ none
  rw [l.get_set]
  exact Option.some_ne_none _

theorem upgradeToAndCall_returns {newImplementation : Address} {data : Bytes}
    (h : Returns sys inv msg l (upgradeToAndCall cfg msg newImplementation data) s ret s' t)
    : Effect cfg l msg (l.get s.world.storage) (.account (.upgradeToAndCall newImplementation data)) ret
        t := by
  obtain ⟨hcaller, s1, h⟩ := onlyOwner_returns h
  exact .upgradeToAndCall hcaller fun _ _ => upgraded_sstore h

theorem dispatchAccount_returns {message : AccountMessage}
    (h : Returns sys inv msg l (dispatchAccount cfg msg message) s ret s' t)
    : Effect cfg l msg (l.get s.world.storage) (.account message) ret t := by
  cases message with
  | execute dest value func =>
    have h := h.bind_require.2
    exact .execute .execute (requireFromEntryPointOrOwner_returns h)
      (Reads.not_sstore h (execute_does _ _ _ _ _))
  | executeBatch dest value func =>
    have h := h.bind_require.2
    exact .execute .executeBatch (requireFromEntryPointOrOwner_returns h)
      (Reads.not_sstore h (executeBatch_does _ _ _ _ _))
  | initializeAccount anOwner aPublicKey falconVerifier => exact initializeAccount_returns h.bind_require.2
  | withdrawDepositTo withdrawAddress amount =>
    have h := h.bind_require.2
    exact .withdrawDepositTo (onlyOwner_returns h).1 (Reads.not_sstore h (withdrawDepositTo_does _ _ _ _))
  | addDeposit => exact addDeposit_returns h
  | getDeposit | getNonce => exact view_returns rfl h.bind_require.2
  | owner =>
    obtain ⟨s1, _, h⟩ := h.bind_require.2.bind_sload
    rw [h.pure.2.2]
    exact .quiet rfl
  | publicKey i =>
    obtain ⟨s1, _, h⟩ := h.bind_require.2.bind_sload
    obtain ⟨value, _, h⟩ := bind_getOrRevert h
    rw [h.pure.2.2]
    exact .quiet rfl
  | upgradeToAndCall newImplementation data => exact upgradeToAndCall_returns h
  | proxiableUUID => exact absurd h Returns.not_revert
  | _ =>
    rw [h.bind_require.2.pure.2.2]
    exact .quiet rfl

theorem dispatch_effect (h : Returns sys inv msg l (dispatch cfg msg) s ret s' t)
    : Effect cfg l msg (l.get s.world.storage) (decodeMessage cfg msg.message) ret t := by
  unfold dispatch at h
  cases hmessage : decodeMessage cfg msg.message with
  | receive =>
    rw [hmessage] at h
    rw [h.pure.2.2]
    exact .quiet rfl
  | validateUserOp userOp userOpHash missing =>
    rw [hmessage] at h
    exact validateUserOp_returns h.bind_require.2
  | account message =>
    rw [hmessage] at h
    exact dispatchAccount_returns h
  | _ =>
    rw [hmessage] at h
    exact absurd h Returns.not_revert

end

end FalconSimpleAccount
