import FalconSmartAccount.Paymaster.BasePaymaster

/-!
What each function of a paymaster leaves in its trace, if it returns.
-/

open Evm

namespace BasePaymaster

variable {S T : Type}

/-- What the owner has a function tell the entry point. -/
def Function.asks : Function → Option Message
  | .withdrawTo withdrawAddress amount => some (.withdrawTo withdrawAddress amount)
  | .addStake unstakeDelaySec => some (.addStake unstakeDelaySec)
  | .unlockStake => some .unlockStake
  | .withdrawStake withdrawAddress => some (.withdrawStake withdrawAddress)
  | _ => none

/-- The functions of `Ownable` that write. -/
def Function.transfers : Function → Bool
  | .transferOwnership _ | .renounceOwnership => true
  | _ => false

/-- The functions that only the entry point may call. -/
def Function.hooks : Function → Bool
  | .validatePaymasterUserOp _ _ _ | .postOp _ _ _ _ => true
  | _ => false

def Elsewhere (entryPoint : Address) (o : Op S Message ReturnData Log) : Prop :=
  ∀ c, o = .call c → c.target ≠ entryPoint

/-- The subclass leaves the entry point to `BasePaymaster`. -/
structure Config.Quiet (cfg : Config S) : Prop where
  validatePaymasterUserOp : ∀ msg userOp userOpHash maxCost,
    (cfg.validatePaymasterUserOp msg userOp userOpHash maxCost).Does (Elsewhere cfg.entryPoint)
  postOp : ∀ msg mode context actualGasCost actualUserOpFeePerGas,
    (cfg.postOp msg mode context actualGasCost actualUserOpFeePerGas).Does (Elsewhere cfg.entryPoint)

/-- The events of the subclass. -/
structure Subclass (cfg : Config S) (l : Lens T (Storage S)) (t : List (Event T Message ReturnData Log))
    : Prop where
  calls : cfg.Quiet → ∀ callee before after ok ret body, .call callee before after ok ret body ∈ t →
    callee.self ≠ cfg.entryPoint
  writes : ∀ before after, .sstore before after ∈ t →
    (l.get after.storage).owner = (l.get before.storage).owner

/-- The trace of a call of the paymaster, which has the storage `s` when the call starts. -/
inductive Effect (cfg : Config S) (l : Lens T (Storage S)) (msg : Frame Message) (s : Storage S)
    : Function → ReturnData → List (Event T Message ReturnData Log) → Prop where
  | validatePaymasterUserOp {userOp userOpHash maxCost t} {context : Context} {validationData : Word} :
      msg.caller = cfg.entryPoint → Subclass cfg l t →
      Effect cfg l msg s (.validatePaymasterUserOp userOp userOpHash maxCost)
        (.bytes (encodeContext context.1 validationData)) t
  | postOp {mode context actualGasCost actualUserOpFeePerGas ret t} :
      msg.caller = cfg.entryPoint → Subclass cfg l t →
      Effect cfg l msg s (.postOp mode context actualGasCost actualUserOpFeePerGas) ret t
  | asks {function value message ret before after ret' body} :
      msg.caller = s.owner → function.asks = some message →
      Effect cfg l msg s function ret
        [.call ⟨cfg.entryPoint, msg.self, value, message, msg.env⟩ before after true ret' body]
  | transfers {function owner ret before} :
      msg.caller = s.owner → function.transfers = true →
      Effect cfg l msg s function ret [.sstore before (before.write l fun s => { s with owner })]
  | deposit {ret before after ret' body} :
      Effect cfg l msg s .deposit ret
        [.call ⟨cfg.entryPoint, msg.self, msg.value, .depositTo msg.self, msg.env⟩ before after true ret' body]
  | getDeposit {ret before after ret' body} :
      Effect cfg l msg s .getDeposit ret
        [.call ⟨cfg.entryPoint, msg.self, 0, .entryPointView (.balanceOf msg.self), msg.env⟩ before after true
          ret' body]
  | entryPoint {ret} : Effect cfg l msg s .entryPoint ret []
  | owner {ret} : Effect cfg l msg s .owner ret []

variable {cfg : Config S} {msg : Frame Message} {sys : System T Message ReturnData Log}
  {inv : Frame Message → State T → Reply T Message ReturnData Log} {l : Lens T (Storage S)} {s s' : State T}
  {t : List (Event T Message ReturnData Log)} {ret : ReturnData} {α β : Type}

theorem bind_getOrRevert {o : Option α} {f : α → Code S β} {b : β}
    (h : Returns sys inv msg l (getOrRevert o >>= f) s b s' t)
    : ∃ a, o = some a ∧ Returns sys inv msg l (f a) s b s' t := by
  cases o with
  | none =>
    obtain ⟨_, _, _, _, h, _, _⟩ := h.bind
    exact absurd h Returns.not_revert
  | some a => exact ⟨a, rfl, h⟩

theorem callFunction_returns {target : Address} {value : Nat} {message : Message}
    (h : Returns sys inv msg l (callFunction target value message) s ret s' t)
    : ∃ before after body, t = [.call ⟨target, msg.self, value, message, msg.env⟩ before after true ret
        body] := by
  obtain ⟨r, s1, s2, s3, body, t1, _, _, _, ht, h⟩ := h.bind_call
  obtain ⟨hsuccess, h⟩ := h.bind_require
  obtain ⟨hret, _, ht1⟩ := h.pure
  rw [ht, ht1, hsuccess, hret]
  exact ⟨_, _, _, rfl⟩

theorem callProcedure_returns {target : Address} {value : Nat} {message : Message}
    (h : Returns sys inv msg l (callProcedure target value message) s ret s' t)
    : ∃ before after ret' body, t = [.call ⟨target, msg.self, value, message, msg.env⟩ before after true ret'
        body] := by
  obtain ⟨s1, _, h⟩ := h.bind_codeLength
  obtain ⟨_, h⟩ := h.bind_require
  obtain ⟨ret', s2, t1, t2, h1, h, ht⟩ := h.bind
  obtain ⟨before, after, body, ht1⟩ := callFunction_returns h1
  rw [ht, ht1, h.pure.2.2]
  exact ⟨before, after, ret', body, rfl⟩

theorem onlyOwner_returns {f : Unit → Code S β} {b : β}
    (h : Returns sys inv msg l (onlyOwner cfg msg >>= f) s b s' t)
    : msg.caller = (l.get s.world.storage).owner ∧ ∃ s1, Returns sys inv msg l (f ()) s1 b s' t := by
  obtain ⟨_, s1, t1, t2, h1, h, ht⟩ := h.bind
  obtain ⟨s2, _, h1⟩ := h1.bind_sload
  cases hcheck : cfg.checkOwner (l.get s.world.storage).owner msg.caller with
  | some error =>
    rw [hcheck] at h1
    exact absurd h1 Returns.not_revert
  | none =>
    rw [hcheck] at h1
    rw [h1.pure.2.2, List.nil_append] at ht
    rw [ht]
    exact ⟨cfg.checkOwner_eq_none _ _ hcheck, s1, h⟩

/-- Code of the subclass. -/
theorem subclass_of_zoom {p : Prog S Message ReturnData Log α} {a : α}
    (hp : cfg.Quiet → p.Does (Elsewhere cfg.entryPoint))
    (h : Returns sys inv msg l (p.zoom restPart.get restPart.set) s a s' t)
    : Subclass cfg l t := by
  unfold Returns at h
  rw [Prog.zoom_zoom] at h
  have hrun : Returns sys inv msg (l.comp restPart) p s a s' t := h
  constructor
  . intro hquiet callee before after ok ret body he
    obtain ⟨c, hc, rfl⟩ := hrun.calls (hp hquiet) he
    exact hc c rfl
  . intro before after he
    obtain ⟨f, _, rfl⟩ := hrun.sstores (.any p) he
    change (l.get (l.set _ _)).owner = _
    rw [l.get_set]
    rfl

theorem asks_returns {function : Function} {value : Nat} {message : Message}
    (hasks : function.asks = some message)
    (h : Returns sys inv msg l
      (do onlyOwner cfg msg; callProcedure cfg.entryPoint value message) s ret s' t)
    : Effect cfg l msg (l.get s.world.storage) function ret t := by
  obtain ⟨hcaller, s1, h⟩ := onlyOwner_returns h
  obtain ⟨before, after, ret', body, rfl⟩ := callProcedure_returns h
  exact .asks hcaller hasks

theorem dispatchFunction_returns {function : Function}
    (h : Returns sys inv msg l (dispatchFunction cfg msg function) s ret s' t)
    : Effect cfg l msg (l.get s.world.storage) function ret t := by
  cases function with
  | validatePaymasterUserOp userOp userOpHash maxCost =>
    obtain ⟨hcaller, h⟩ := h.bind_require.2.bind_require
    obtain ⟨r, s1, t1, t2, h1, h, ht⟩ := h.bind
    obtain ⟨hret, _, ht2⟩ := h.pure
    rw [ht2, List.append_nil] at ht
    rw [ht, hret]
    apply Effect.validatePaymasterUserOp (beq_iff_eq.mp hcaller)
    exact subclass_of_zoom (fun hquiet => hquiet.validatePaymasterUserOp _ _ _ _) h1
  | postOp mode context actualGasCost actualUserOpFeePerGas =>
    obtain ⟨hcaller, h⟩ := h.bind_require.2.bind_require
    obtain ⟨_, s1, t1, t2, h1, h, ht⟩ := h.bind
    rw [h.pure.2.2, List.append_nil] at ht
    rw [ht]
    apply Effect.postOp (beq_iff_eq.mp hcaller)
    exact subclass_of_zoom (fun hquiet => hquiet.postOp _ _ _ _ _) h1
  | deposit =>
    obtain ⟨before, after, ret', body, rfl⟩ := callProcedure_returns h
    exact .deposit
  | withdrawTo withdrawAddress amount => exact asks_returns rfl h.bind_require.2
  | addStake unstakeDelaySec => exact asks_returns rfl h
  | unlockStake => exact asks_returns rfl h.bind_require.2
  | withdrawStake withdrawAddress => exact asks_returns rfl h.bind_require.2
  | getDeposit =>
    obtain ⟨ret', s1, t1, t2, h1, h, ht⟩ := h.bind_require.2.bind
    obtain ⟨before, after, body, ht1⟩ := callFunction_returns h1
    obtain ⟨balance, _, h⟩ := bind_getOrRevert h
    rw [ht, ht1, h.pure.2.2]
    exact .getDeposit
  | entryPoint =>
    rw [h.bind_require.2.pure.2.2]
    exact .entryPoint
  | owner =>
    obtain ⟨s1, _, h⟩ := h.bind_require.2.bind_sload
    rw [h.pure.2.2]
    exact .owner
  | transferOwnership newOwner =>
    obtain ⟨hcaller, s1, h⟩ := onlyOwner_returns h.bind_require.2
    obtain ⟨owner, _, h⟩ := bind_getOrRevert h
    obtain ⟨s2, t1, _, ht, h⟩ := h.bind_sstore
    rw [ht, h.pure.2.2]
    exact .transfers hcaller rfl
  | renounceOwnership =>
    obtain ⟨hcaller, s1, h⟩ := onlyOwner_returns h.bind_require.2
    obtain ⟨s2, t1, _, ht, h⟩ := h.bind_sstore
    rw [ht, h.pure.2.2]
    exact .transfers hcaller rfl

theorem dispatch_effect (h : Returns sys inv msg l (dispatch cfg msg) s ret s' t)
    : ∃ function, decodeMessage cfg msg.message = some function
        ∧ Effect cfg l msg (l.get s.world.storage) function ret t := by
  unfold dispatch at h
  cases hmessage : decodeMessage cfg msg.message with
  | some function =>
    rw [hmessage] at h
    exact ⟨function, rfl, dispatchFunction_returns h⟩
  | none =>
    rw [hmessage] at h
    exact absurd h Returns.not_revert

/-! ## What follows from the trace -/

section

variable {storage : Storage S} {function : Function}

theorem Effect.caller_eq (h : Effect cfg l msg storage function ret t) (hhooks : function.hooks = true)
    : msg.caller = cfg.entryPoint := by
  cases h with
  | validatePaymasterUserOp hcaller _ => exact hcaller
  | postOp hcaller _ => exact hcaller
  | asks _ hasks => cases function <;> cases hhooks <;> cases hasks
  | transfers _ htransfers => cases function <;> cases hhooks <;> cases htransfers
  | _ => cases hhooks

/-- The only calls of the entry point that need the owner's permission are those that have it. -/
theorem Effect.calls (h : Effect cfg l msg storage function ret t) (hquiet : cfg.Quiet)
    {callee : Frame Message} {before after : World T} {ok : Bool} {ret' : ReturnData}
    {body : List (Event T Message ReturnData Log)} (he : .call callee before after ok ret' body ∈ t)
    (hself : callee.self = cfg.entryPoint)
    : msg.caller = storage.owner ∧ function.asks = some callee.message
        ∨ callee.message = .depositTo msg.self ∨ ∃ view, callee.message = .entryPointView view := by
  cases h with
  | validatePaymasterUserOp _ hsubclass => exact absurd hself (hsubclass.calls hquiet _ _ _ _ _ _ he)
  | postOp _ hsubclass => exact absurd hself (hsubclass.calls hquiet _ _ _ _ _ _ he)
  | asks hcaller hasks =>
    cases List.mem_singleton.mp he
    exact .inl ⟨hcaller, hasks⟩
  | transfers => cases List.mem_singleton.mp he
  | deposit =>
    cases List.mem_singleton.mp he
    exact .inr (.inl rfl)
  | getDeposit =>
    cases List.mem_singleton.mp he
    exact .inr (.inr ⟨_, rfl⟩)
  | entryPoint | owner => exact absurd he List.not_mem_nil

theorem Effect.writes (h : Effect cfg l msg storage function ret t) {before after : World T}
    (he : .sstore before after ∈ t) (hne : (l.get after.storage).owner ≠ (l.get before.storage).owner)
    : msg.caller = storage.owner ∧ function.transfers = true := by
  cases h with
  | validatePaymasterUserOp _ hsubclass => exact absurd (hsubclass.writes _ _ he) hne
  | postOp _ hsubclass => exact absurd (hsubclass.writes _ _ he) hne
  | transfers hcaller htransfers => exact ⟨hcaller, htransfers⟩
  | asks | deposit | getDeposit => cases List.mem_singleton.mp he
  | entryPoint | owner => exact absurd he List.not_mem_nil

end

end BasePaymaster
