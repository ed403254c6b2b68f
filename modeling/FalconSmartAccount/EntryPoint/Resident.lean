import FalconSmartAccount.EntryPoint.Approvals
import FalconSmartAccount.Evm.Operations

/-!
The entry point and one contract that is known, among arbitrary others.
-/

open Evm

/-- `A` is the storage of the known contract, `Y` that of the others. -/
structure Residence (A Y : Type) where
  cfg : EntryPoint.Config
  entryPoint : Address
  entryPoint_ne : entryPoint ≠ cfg.senderCreator
  resident : Address
  resident_ne_entryPoint : resident ≠ entryPoint
  resident_ne_senderCreator : resident ≠ cfg.senderCreator
  program : Frame Message → Prog A Message ReturnData Log ReturnData
  code : Y → Address → Option (Frame Message → Prog Y Message ReturnData Log ReturnData)
  codeLength : A × Y → Address → Nat
  delegate : A × Y → Address → Option (Frame Message → EntryPoint.Code ReturnData)
  clearTransient : Y → Y

namespace Residence

variable {A Y : Type}

def fstPart : Lens (A × Y) A where
  get s := s.1
  set v s := (v, s.2)
  get_set _ _ := rfl

def sndPart : Lens (A × Y) Y where
  get s := s.2
  set v s := (s.1, v)
  get_set _ _ := rfl

def residentPart : Lens (Chain (A × Y)) A := Chain.restPart.comp fstPart

def residentOf (w : World (Chain (A × Y))) : A := residentPart.get w.storage

variable (r : Residence A Y)

def deployment : Deployment (A × Y) where
  cfg := r.cfg
  entryPoint := r.entryPoint
  entryPoint_ne := r.entryPoint_ne
  code s a :=
    if a = r.resident then
      some fun msg => (r.program msg).zoom fstPart.get fstPart.set
    else
      (r.code s.2 a).map fun program msg => (program msg).zoom sndPart.get sndPart.set
  codeLength := r.codeLength
  delegate := r.delegate
  clearTransient s := (s.1, r.clearTransient s.2)

abbrev system : System (Chain (A × Y)) Message ReturnData Log := r.deployment.system

theorem code_resident (s : Chain (A × Y))
    : r.system.code s r.resident
        = some fun msg => (r.program msg).zoom residentPart.get residentPart.set := by
  change r.deployment.codeAt s r.resident = _
  unfold Deployment.codeAt
  rw [if_neg (show r.resident ≠ r.deployment.entryPoint from r.resident_ne_entryPoint)]
  rw [if_neg (show r.resident ≠ r.deployment.cfg.senderCreator from r.resident_ne_senderCreator)]
  have hcode : r.deployment.code s.rest r.resident
      = some fun msg => (r.program msg).zoom fstPart.get fstPart.set := if_pos rfl
  rw [hcode]
  apply congrArg some
  funext msg
  apply Prog.zoom_zoom

/-- All other code leaves the storage of the resident alone. -/
theorem code_other {s : Chain (A × Y)} {a : Address} (ha : a ≠ r.resident)
    {program : Frame Message → Prog (Chain (A × Y)) Message ReturnData Log ReturnData}
    (h : r.system.code s a = some program) (msg : Frame Message)
    : ∃ (S : Type) (l : Lens (Chain (A × Y)) S) (p : Prog S Message ReturnData Log ReturnData),
        (∀ v s, residentPart.get (l.set v s) = residentPart.get s) ∧ program msg = p.zoom l.get l.set := by
  change r.deployment.codeAt s a = some program at h
  unfold Deployment.codeAt at h
  split at h
  . cases h
    exact ⟨_, Chain.entryPointPart, _, fun _ _ => rfl, rfl⟩
  . split at h
    . cases h
      exact ⟨_, Chain.noPart, _, fun _ _ => rfl, rfl⟩
    . have hcode : r.deployment.code s.rest a
          = (r.code s.rest.2 a).map fun program msg => (program msg).zoom sndPart.get sndPart.set :=
        if_neg ha
      rw [hcode] at h
      rw [Option.map_map] at h
      obtain ⟨program', _, rfl⟩ := Option.map_eq_some_iff.mp h
      refine ⟨_, Chain.restPart.comp sndPart, program' msg, fun _ _ => rfl, ?_⟩
      apply Prog.zoom_zoom

variable {r} {n : Nat} {frame : Frame Message} {s : State (Chain (A × Y))}

/-- A call of the resident that succeeds. -/
theorem invoke_resident (hself : frame.self = r.resident) (hok : (invoke r.system n frame s).ok = true)
    : ∃ m < n, ∃ (ledger : Ledger) (t : Chain.Trace (A × Y)),
        s.world.ledger.transfer frame.caller frame.self frame.value = some ledger
        ∧ Returns r.system (invoke r.system m) frame residentPart (r.program frame)
            { s with world := { s.world with ledger := ledger } }
            (invoke r.system n frame s).data (invoke r.system n frame s).state t
        ∧ (invoke r.system n frame s).body = .enter { s.world with ledger := ledger } :: t := by
  have hcode := r.code_resident s.world.storage
  rw [← hself] at hcode
  obtain ⟨m, hm, ledger, htransfer, ⟨hnone, _⟩ | ⟨program, t, hprogram, hrun, hbody⟩⟩ :=
    invoke_ok r.system hok
  . rw [hcode] at hnone
    cases hnone
  . rw [hcode] at hprogram
    cases hprogram
    exact ⟨m, hm, ledger, t, htransfer, hrun, hbody⟩

/-- Other contracts do not write to the storage of the resident. -/
theorem invoke_other_sstore {before after : World (Chain (A × Y))} (hself : frame.self ≠ r.resident)
    (hok : (invoke r.system n frame s).ok = true)
    (hmem : .sstore before after ∈ (invoke r.system n frame s).body)
    : residentOf after = residentOf before := by
  obtain ⟨m, _, ledger, _, ⟨_, _, hbody⟩ | ⟨program, t, hcode, hrun, hbody⟩⟩ := invoke_ok r.system hok
  . rw [hbody] at hmem
    cases List.mem_singleton.mp hmem
  rw [hbody] at hmem
  have hmem := (List.mem_cons.mp hmem).resolve_left fun h => by cases h
  obtain ⟨S, l, p, hl, hp⟩ := r.code_other hself hcode frame
  rw [hp] at hrun
  obtain ⟨g, _, hafter⟩ := Returns.sstores (l := l) hrun (.any p) hmem
  unfold residentOf
  rw [hafter]
  apply hl

end Residence
