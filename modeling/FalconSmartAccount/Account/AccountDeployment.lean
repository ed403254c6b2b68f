import FalconSmartAccount.Account.FalconSimpleAccount
import FalconSmartAccount.EntryPoint.Approvals
import FalconSmartAccount.Evm.Operations

/-!
The entry point and a `FalconSimpleAccount` among arbitrary other contracts.
-/

open Evm

/-- The other contracts have any code on their own storage, the one of `Y`. Once the account has been
upgraded it has any code, too, and `upgraded` is what the new implementation does. -/
structure AccountDeployment (Y : Type) where
  cfg : EntryPoint.Config
  entryPoint : Address
  entryPoint_ne : entryPoint ≠ cfg.senderCreator
  accountCfg : FalconSimpleAccount.Config
  accountCfg_entryPoint : accountCfg.entryPoint = entryPoint
  account : Address
  account_ne_entryPoint : account ≠ entryPoint
  account_ne_senderCreator : account ≠ cfg.senderCreator
  upgraded : Address → Frame Message →
    Prog (FalconSimpleAccount.Slots × Address) Message ReturnData Log ReturnData
  code : Y → Address → Option (Frame Message → Prog Y Message ReturnData Log ReturnData)
  codeLength : FalconSimpleAccount.Storage × Y → Address → Nat
  delegate : FalconSimpleAccount.Storage × Y → Address →
    Option (Frame Message → EntryPoint.Code ReturnData)
  clearTransient : Y → Y

namespace AccountDeployment

open FalconSimpleAccount

variable {Y : Type}

def fstPart : Lens (Storage × Y) Storage where
  get s := s.1
  set v s := (v, s.2)
  get_set _ _ := rfl

def sndPart : Lens (Storage × Y) Y where
  get s := s.2
  set v s := (s.1, v)
  get_set _ _ := rfl

def accountPart : Lens (Chain (Storage × Y)) Storage := Chain.restPart.comp fstPart

/-- The storage of the account. -/
def accountOf (w : World (Chain (Storage × Y))) : Storage := accountPart.get w.storage

variable (f : AccountDeployment Y)

def accountCode (s : Storage) (msg : Frame Message) : Code ReturnData :=
  match s.upgradedTo with
  | none => dispatch f.accountCfg msg
  | some implementation => (f.upgraded implementation msg).zoom upgradedPart.get upgradedPart.set

def deployment : Deployment (Storage × Y) where
  cfg := f.cfg
  entryPoint := f.entryPoint
  entryPoint_ne := f.entryPoint_ne
  code s a :=
    if a = f.account then
      some fun msg => (f.accountCode s.1 msg).zoom fstPart.get fstPart.set
    else
      (f.code s.2 a).map fun program msg => (program msg).zoom sndPart.get sndPart.set
  codeLength := f.codeLength
  delegate := f.delegate
  clearTransient s := (s.1, f.clearTransient s.2)

abbrev system : System (Chain (Storage × Y)) Message ReturnData Log := f.deployment.system

/-! ## Code -/

theorem code_account (s : Chain (Storage × Y))
    : f.system.code s f.account = some fun msg =>
        (f.accountCode (accountPart.get s) msg).zoom accountPart.get accountPart.set := by
  change f.deployment.codeAt s f.account = _
  unfold Deployment.codeAt
  rw [if_neg (show f.account ≠ f.deployment.entryPoint from f.account_ne_entryPoint)]
  rw [if_neg (show f.account ≠ f.deployment.cfg.senderCreator from f.account_ne_senderCreator)]
  have hcode : f.deployment.code s.rest f.account
      = some fun msg => (f.accountCode s.rest.1 msg).zoom fstPart.get fstPart.set := if_pos rfl
  rw [hcode]
  exact congrArg some (funext fun msg => Prog.zoom_zoom Chain.restPart fstPart _)

/-- All other code leaves the storage of the account alone. -/
theorem code_other {s : Chain (Storage × Y)} {a : Address} (ha : a ≠ f.account)
    {program : Frame Message → Prog (Chain (Storage × Y)) Message ReturnData Log ReturnData}
    (h : f.system.code s a = some program) (msg : Frame Message)
    : ∃ (S : Type) (l : Lens (Chain (Storage × Y)) S) (p : Prog S Message ReturnData Log ReturnData),
        (∀ v s, accountPart.get (l.set v s) = accountPart.get s) ∧ program msg = p.zoom l.get l.set := by
  change f.deployment.codeAt s a = some program at h
  unfold Deployment.codeAt at h
  split at h
  . cases h
    exact ⟨_, Chain.entryPointPart, _, fun _ _ => rfl, rfl⟩
  . split at h
    . cases h
      exact ⟨_, Chain.noPart, _, fun _ _ => rfl, rfl⟩
    . have hcode : f.deployment.code s.rest a
          = (f.code s.rest.2 a).map fun program msg => (program msg).zoom sndPart.get sndPart.set :=
        if_neg ha
      rw [hcode] at h
      rw [Option.map_map] at h
      obtain ⟨program', _, rfl⟩ := Option.map_eq_some_iff.mp h
      exact ⟨_, Chain.restPart.comp sndPart, program' msg, fun _ _ => rfl,
        Prog.zoom_zoom Chain.restPart sndPart _⟩

/-! ## Calls -/

variable {f} {n : Nat} {frame : Frame Message} {s : State (Chain (Storage × Y))}

/-- A call of the account that succeeds. -/
theorem invoke_account (hself : frame.self = f.account) (hok : (invoke f.system n frame s).ok = true)
    : ∃ m < n, ∃ (ledger : Ledger) (t : Chain.Trace (Storage × Y)),
        s.world.ledger.transfer frame.caller frame.self frame.value = some ledger
        ∧ Returns f.system (invoke f.system m) frame accountPart (f.accountCode (accountOf s.world) frame)
            { s with world := { s.world with ledger := ledger } }
            (invoke f.system n frame s).data (invoke f.system n frame s).state t
        ∧ (invoke f.system n frame s).body = .enter { s.world with ledger := ledger } :: t := by
  have hcode := f.code_account s.world.storage
  rw [← hself] at hcode
  obtain ⟨m, hm, ledger, htransfer, ⟨hnone, _⟩ | ⟨program, t, hprogram, hrun, hbody⟩⟩ :=
    invoke_ok f.system hok
  . rw [hcode] at hnone
    cases hnone
  . rw [hcode] at hprogram
    cases hprogram
    exact ⟨m, hm, ledger, t, htransfer, hrun, hbody⟩

/-- Other contracts do not write to the storage of the account. -/
theorem invoke_other_sstore {before after : World (Chain (Storage × Y))}
    (hself : frame.self ≠ f.account) (hok : (invoke f.system n frame s).ok = true)
    (hmem : .sstore before after ∈ (invoke f.system n frame s).body)
    : accountOf after = accountOf before := by
  obtain ⟨m, _, ledger, _, ⟨_, _, hbody⟩ | ⟨program, t, hcode, hrun, hbody⟩⟩ := invoke_ok f.system hok
  . rw [hbody] at hmem
    cases List.mem_singleton.mp hmem
  rw [hbody] at hmem
  have hmem := (List.mem_cons.mp hmem).resolve_left fun h => by cases h
  obtain ⟨S, l, p, hl, hp⟩ := f.code_other hself hcode frame
  rw [hp] at hrun
  obtain ⟨g, _, hafter⟩ := Returns.sstores (l := l) hrun (.any p) hmem
  unfold accountOf
  rw [hafter]
  exact hl _ _

/-! ## A small deployment -/

/-- An account at `3` with its verifier at `7`, which agrees to everything. -/
def sample : AccountDeployment Unit where
  cfg := Deployment.sample.cfg
  entryPoint := Deployment.sample.entryPoint
  entryPoint_ne := Deployment.sample.entryPoint_ne
  accountCfg :=
    { entryPoint := 1
      initializer i := if i.initialized = 0 then some ⟨1, false⟩ else none
      initializer_once i i' h := by
        split at h
        . cases h
          rfl
        . cases h
      upgradeToAndCallUUPS _ newImplementation _ := do
        Prog.sstore fun s => (s.1, newImplementation)
        return default
      abiDecode data := if data = [1] then some (.account (.execute 5 20 [])) else none }
  accountCfg_entryPoint := rfl
  account := 3
  account_ne_entryPoint := by decide
  account_ne_senderCreator := by decide
  upgraded _ _ := return default
  code _ a := if a = 7 then some fun _ => return .words [1] else none
  codeLength _ a := if a = 1 ∨ a = 3 ∨ a = 7 then 1 else 0
  delegate _ _ := none
  clearTransient := id

def sampleLedger : Ledger where
  balance a := if a = 3 then 100 else 0
  bounded := by
    rw [Finset.sum_ite_eq']
    simp

/-- The owner of the account is at `6`. -/
def sampleWorld : World (Chain (Storage × Unit)) :=
  ⟨sampleLedger, ⟨Deployment.genesis, ⟨⟨⟨6, [], 7, ⟨1, false⟩, fun _ => 0⟩, none⟩, ()⟩⟩⟩

/-- All coefficients are zero, as are the 40 bytes of the salt. -/
def zeroSignature : Bytes :=
  List.replicate (32 * 512) 0 ++ Abi.wordBytes (32 * 513) ++ Abi.wordBytes 40 ++ List.replicate 40 0

/-- An operation that sends something to `5`. The account pays for its gas. -/
def sendOp : PackedUserOperation :=
  { Deployment.sampleOp 3 with
    callData := [1]
    accountGasLimits := BitVec.ofNat 256 (20 * 2 ^ 128 + 10)
    signature := zeroSignature }

/-- Someone else sends the bundle. -/
def sendTx : Transaction Message :=
  ⟨8, 1, 0, 1000000, .handleOps [sendOp] 5, Deployment.freeEnv 1⟩

/-- The owner sends something to `5`. -/
def ownerTx : Transaction Message :=
  ⟨6, 3, 0, 1000000, .account (.execute 5 60 []), Deployment.freeEnv 1⟩

end AccountDeployment
