import FalconSmartAccount.Falcon.ZknoxFalcon
import FalconSmartAccount.Falcon.ZknoxNttStateless

/-!
Runs of calls to the verifier stack: the contracts `ZKNOX_NTT`, `ZKNOX_HashToPoint` and
`ZKNOX_falcon`. The guard of `update` is the wrong way round, so the stack is only as immutable as
its callers leave it.
-/

namespace VerifierStack

open ZKNOX_NTT

/-- The public functions that do not write to storage. Overloads that take the modulus are marked as
`Stateless`. -/
inductive View where
  | o_psirev
  | o_psi_inv_rev
  | ZKNOX_VECMULMOD (a b : List Nat) (q : Nat)
  | ZKNOX_VECADDMOD (a b : List Nat) (q : Nat)
  | ZKNOX_VECSUBMOD (a b : List Nat) (q : Nat)
  | ZKNOX_NTTFW (a : List Nat) (apsirev : Address)
  | ZKNOX_NTTINV (a : List Nat) (apsiinvrev : Address)
  | ZKNOX_NTT_HALFMUL (a b : List Nat)
  | ZKNOX_NTT_MUL (a b : List Nat)
  | ZKNOX_NTTFW_Stateless (a : List Nat) (q : Nat)
  | ZKNOX_NTTINV_Stateless (a : List Nat) (q : Nat)
  | ZKNOX_NTT_HALFMUL_Stateless (a b : List Nat) (q : Nat)
  | mul_NTTPoly (a b : List Nat) (q : Nat)
  | splitToHex (x : Word)
  | hashToPoint (salt msgHash : Bytes) (q n : Nat)
  | verify (msgs : Bytes) (signature : ZKNOX_falcon.Signature) (h : List Nat)
  | verify_opt (msgs : Bytes) (signature : ZKNOX_falcon.Signature) (ntth : List Nat)

inductive Function where
  | update (Apsi_rev Apsi_inrev : Address) (q nm1modq : Nat)
  | make_immutable
  | view (v : View)

structure Call where
  sender : Address
  gas : Nat
  function : Function

inductive Output where
  | none
  | address (a : Address)
  | array (xs : List Nat)
  | bool (b : Bool)

def splitToHex (x : Word) : List Nat :=
  (List.range 16).map fun i => (x.toNat >>> ((15 - i) * 16)) % 2 ^ 16

section

variable (keccak256 : Bytes → Word) (code : Address → Bytes)

def viewRun (gas : Nat) (st : ZKNOX_falcon.Storage) : View → Checked Output
  | .o_psirev => .ok (.address st.ntt.o_psirev)
  | .o_psi_inv_rev => .ok (.address st.ntt.o_psi_inv_rev)
  | .ZKNOX_VECMULMOD a b q => .array <$> ZKNOX_VECMULMOD a b q
  | .ZKNOX_VECADDMOD a b q => .array <$> ZKNOX_VECADDMOD a b q
  | .ZKNOX_VECSUBMOD a b q => .array <$> ZKNOX_VECSUBMOD a b q
  | .ZKNOX_NTTFW a apsirev => .ok (.array (ZKNOX_NTTFW st.ntt a (code apsirev)))
  | .ZKNOX_NTTINV a apsiinvrev => .ok (.array (ZKNOX_NTTINV st.ntt a (code apsiinvrev)))
  | .ZKNOX_NTT_HALFMUL a b => .array <$> ZKNOX_NTT_HALFMUL code st.ntt a b
  | .ZKNOX_NTT_MUL a b => .array <$> ZKNOX_NTT_MUL code st.ntt a b
  | .ZKNOX_NTTFW_Stateless a q => .array <$> Stateless.ZKNOX_NTTFW a q
  | .ZKNOX_NTTINV_Stateless a q => .array <$> Stateless.ZKNOX_NTTINV st.ntt a q
  | .ZKNOX_NTT_HALFMUL_Stateless a b q => .array <$> Stateless.ZKNOX_NTT_HALFMUL st.ntt a b q
  | .mul_NTTPoly a b q => .array <$> Stateless.mul_NTTPoly st.ntt a b q
  | .splitToHex x => .ok (.array (splitToHex x))
  | .hashToPoint salt msgHash q n =>
    .array <$> ZKNOX_HashToPoint.hashToPoint keccak256 gas salt msgHash q n
  | .verify msgs signature h => .bool <$> ZKNOX_falcon.verify keccak256 code gas st msgs signature h
  | .verify_opt msgs signature ntth =>
    .bool <$> ZKNOX_falcon.verify_opt keccak256 code gas st msgs signature ntth

/-- What a call returns and the storage it leaves. No function looks at who calls it. -/
def run (call : Call) (st : ZKNOX_falcon.Storage) : Checked (Output × ZKNOX_falcon.Storage) :=
  match call.function with
  | .update Apsi_rev Apsi_inrev q nm1modq =>
    return (.none, { st with ntt := update st.ntt Apsi_rev Apsi_inrev q nm1modq })
  | .make_immutable => return (.none, { st with ntt := make_immutable st.ntt })
  | .view v => return (← viewRun keccak256 code call.gas st v, st)

/-- A call that reverts leaves the storage as it was. -/
def step (st : ZKNOX_falcon.Storage) (call : Call) : ZKNOX_falcon.Storage :=
  match run keccak256 code call st with
  | .ok (_, st') => st'
  | .error _ => st

def steps (st : ZKNOX_falcon.Storage) (calls : List Call) : ZKNOX_falcon.Storage :=
  calls.foldl (step keccak256 code) st

end

/-! ## One call -/

/-- The four values that the products depend on. -/
structure SameValues (s s' : ZKNOX_NTT.Storage) : Prop where
  o_psirev : s.o_psirev = s'.o_psirev
  o_psi_inv_rev : s.o_psi_inv_rev = s'.o_psi_inv_rev
  storage_q : s.storage_q = s'.storage_q
  storage_nm1modq : s.storage_nm1modq = s'.storage_nm1modq

/-- The call does not ask `update` for other values than the stored ones. -/
def Call.Harmless (s : ZKNOX_NTT.Storage) (call : Call) : Prop :=
  ∀ Apsi_rev Apsi_inrev q nm1modq,
    call.function = .update Apsi_rev Apsi_inrev q nm1modq →
      SameValues ⟨Apsi_rev, Apsi_inrev, q, nm1modq, 1⟩ s

section

variable {keccak256 : Bytes → Word} {code : Address → Bytes} {st : ZKNOX_falcon.Storage}
  (himm : st.ntt.is_immutable = 1)

include himm

theorem eq_of_sameValues {s : ZKNOX_NTT.Storage} (hs : s.is_immutable = 1) (h : SameValues s st.ntt)
    : { st with ntt := s } = st := by
  obtain ⟨qs1, ntt⟩ := st
  obtain ⟨h1, h2, h3, h4⟩ := h
  congr
  cases s
  cases ntt
  simp_all

/-- After construction the guard of `update` always holds. -/
theorem step_update (sender : Address) (gas : Nat) (Apsi_rev Apsi_inrev : Address) (q nm1modq : Nat)
    : step keccak256 code st ⟨sender, gas, .update Apsi_rev Apsi_inrev q nm1modq⟩
        = { st with ntt := ⟨Apsi_rev, Apsi_inrev, q, nm1modq, 1⟩ } := by
  have hguard : st.ntt.is_immutable > 0 := by omega
  have hupdate : update st.ntt Apsi_rev Apsi_inrev q nm1modq
      = ⟨Apsi_rev, Apsi_inrev, q, nm1modq, 1⟩ := by
    unfold update
    rw [if_pos hguard, himm]
  rw [← hupdate]
  rfl

theorem step_harmless {call : Call} (h : call.Harmless st.ntt) : step keccak256 code st call = st := by
  obtain ⟨sender, gas, function⟩ := call
  cases function with
  | update Apsi_rev Apsi_inrev q nm1modq =>
    rw [step_update himm]
    exact eq_of_sameValues himm rfl (h _ _ _ _ rfl)
  | make_immutable =>
    exact eq_of_sameValues himm rfl ⟨rfl, rfl, rfl, rfl⟩
  | view v =>
    unfold step run
    dsimp only
    cases viewRun keccak256 code gas st v with
    | error e => rfl
    | ok o => rfl

theorem harmless_of_sameValues {call : Call}
    (h : SameValues (step keccak256 code st call).ntt st.ntt)
    : call.Harmless st.ntt := by
  obtain ⟨sender, gas, function⟩ := call
  rintro Apsi_rev Apsi_inrev q nm1modq rfl
  rwa [step_update himm] at h

/-! ## Runs -/

theorem steps_harmless {calls : List Call} (h : ∀ call ∈ calls, call.Harmless st.ntt)
    : steps keccak256 code st calls = st := by
  induction calls with
  | nil => rfl
  | cons call calls ih =>
    unfold steps
    rw [List.foldl_cons, step_harmless himm (h call List.mem_cons_self)]
    exact ih fun c hc => h c (List.mem_cons_of_mem call hc)

theorem harmless_of_steps {calls : List Call}
    (h : ∀ pre, pre <+: calls → SameValues (steps keccak256 code st pre).ntt st.ntt)
    : ∀ call ∈ calls, call.Harmless st.ntt := by
  induction calls with
  | nil =>
    intro call hcall
    cases hcall
  | cons call calls ih =>
    have hfirst : call.Harmless st.ntt :=
      harmless_of_sameValues himm (h [call] ⟨calls, rfl⟩)
    have hstep : step keccak256 code st call = st := step_harmless himm hfirst
    intro c hc
    rcases List.mem_cons.mp hc with rfl | hmem
    . exact hfirst
    . refine ih ?_ c hmem
      intro pre hpre
      have := h (call :: pre) (List.cons_prefix_cons.mpr ⟨rfl, hpre⟩)
      unfold steps at this ⊢
      rwa [List.foldl_cons, hstep] at this

end

/-- The stack after deployment and `make_immutable()`. -/
def sealed (Apsi_rev Apsi_inrev : Address) (q nm1modq : Nat) : ZKNOX_falcon.Storage :=
  ZKNOX_falcon.constructor (make_immutable (constructor Apsi_rev Apsi_inrev q nm1modq))

theorem verdict_fixed_iff (keccak256 : Bytes → Word) (code : Address → Bytes)
    (Apsi_rev Apsi_inrev : Address) (q nm1modq : Nat) (calls : List Call)
    : (∀ pre, pre <+: calls →
        SameValues (steps keccak256 code (sealed Apsi_rev Apsi_inrev q nm1modq) pre).ntt
            (sealed Apsi_rev Apsi_inrev q nm1modq).ntt
          ∧ ∀ gas msgs signature h,
              ZKNOX_falcon.verify keccak256 code gas
                  (steps keccak256 code (sealed Apsi_rev Apsi_inrev q nm1modq) pre) msgs signature h
                = ZKNOX_falcon.verify keccak256 code gas (sealed Apsi_rev Apsi_inrev q nm1modq) msgs
                    signature h)
        ↔
      ∀ call ∈ calls, ∀ Apsi_rev' Apsi_inrev' q' nm1modq',
        call.function = .update Apsi_rev' Apsi_inrev' q' nm1modq' →
          Apsi_rev' = Apsi_rev ∧ Apsi_inrev' = Apsi_inrev ∧ q' = q ∧ nm1modq' = nm1modq := by
  have himm : (sealed Apsi_rev Apsi_inrev q nm1modq).ntt.is_immutable = 1 := rfl
  constructor
  . intro h call hcall Apsi_rev' Apsi_inrev' q' nm1modq' hupdate
    obtain ⟨h1, h2, h3, h4⟩ := harmless_of_steps himm (fun pre hpre => (h pre hpre).1) call hcall _ _ _ _
      hupdate
    exact ⟨h1, h2, h3, h4⟩
  . intro h pre hpre
    have hharmless : ∀ call ∈ pre, call.Harmless (sealed Apsi_rev Apsi_inrev q nm1modq).ntt := by
      intro call hcall _ _ _ _ hupdate
      obtain ⟨h1, h2, h3, h4⟩ := h call (hpre.subset hcall) _ _ _ _ hupdate
      exact ⟨h1, h2, h3, h4⟩
    rw [steps_harmless himm hharmless]
    exact ⟨⟨rfl, rfl, rfl, rfl⟩, fun _ _ _ _ => rfl⟩

/-- One call by anyone swaps the tables and sets the modulus to `0`. -/
theorem update_after_make_immutable
    : let st := sealed 1 2 12289 12265
      let st' := steps (fun _ => 0) (fun _ => []) st [⟨0xbad, 0, .update 2 1 0 0⟩]
      st.ntt = ⟨1, 2, 12289, 12265, 1⟩ ∧ st'.ntt = ⟨2, 1, 0, 0, 1⟩ ∧ ¬SameValues st'.ntt st.ntt :=
  ⟨rfl, rfl, fun h => absurd h.storage_q (by decide)⟩

end VerifierStack
