import FalconSmartAccount.EntryPoint.Stake
import FalconSmartAccount.Evm.Frames

/-!
No nonce is used twice, whatever is called in between, and the next one is always known.
-/

open Evm

namespace EntryPoint

theorem nonce_eq (nonce : Word) : nonce.toNat = nonceSeq nonce ||| (nonceKey nonce).toNat <<< 64 := by
  have hkey : (nonceKey nonce).toNat = nonce.toNat / 2 ^ 64 := by
    unfold nonceKey
    rw [BitVec.toNat_setWidth, BitVec.toNat_ushiftRight, Nat.shiftRight_eq_div_pow]
    apply Nat.mod_eq_of_lt
    have hlt := nonce.isLt
    omega
  have hseq : nonceSeq nonce < 2 ^ 64 := Nat.mod_lt _ (by omega)
  rw [Nat.or_comm, ← Nat.shiftLeft_add_eq_or_of_lt hseq, hkey, Nat.shiftLeft_eq]
  unfold nonceSeq
  omega

/-- As long as the sequence number fits its part of the nonce, the next nonce is the only one with this
sequence number. -/
theorem Storage.eq_getNonce_iff {s : Storage} {sender : Address} {nonce : Word}
    (hlt : s.nonceSequenceNumber sender (nonceKey nonce) < 2 ^ 64)
    : nonce.toNat = s.getNonce sender (nonceKey nonce)
        ↔ s.nonceSequenceNumber sender (nonceKey nonce) = nonceSeq nonce := by
  have hseq : nonceSeq nonce < 2 ^ 64 := Nat.mod_lt _ (by omega)
  unfold getNonce
  rw [nonce_eq nonce, Nat.or_comm, ← Nat.shiftLeft_add_eq_or_of_lt hseq,
    Nat.or_comm (s.nonceSequenceNumber sender (nonceKey nonce)), ← Nat.shiftLeft_add_eq_or_of_lt hlt]
  omega

end EntryPoint

namespace Deployment

open EntryPoint

variable {X : Type} {d : Deployment X} {msg frame : Frame Message} {t : Chain.Trace X}
  {before after : World (Chain X)} {sender : Address} {nonce : Word}

/-- The nonces that have been accepted so far, in this order. -/
def acceptedPart (s : Chain X) : List (Address × Word) := s.entryPoint.books.accepted

/-- The groups of operations in a call of the entry point. -/
def groupsOf (d : Deployment X) (frame : Frame Message) : List UserOpsPerAggregator :=
  if frame.self = d.entryPoint then
    ((bundleOf (decodeMessage d.cfg frame.message)).map Prod.fst).getD []
  else
    []

/-- The operations of a bundle. All of them are accepted, unless it reverts. -/
def opsOf (d : Deployment X) (frame : Frame Message) : List PackedUserOperation :=
  (UserOpsPerAggregator.flatten (d.groupsOf frame)).map Prod.snd

/-- The write uses up the nonce of an operation in a bundle. -/
def AcceptsOp (d : Deployment X) (frame : Frame Message) (sender : Address) (nonce : Word)
    (before after : World (Chain X)) : Prop :=
  (sender, nonce) ∈ (d.opsOf frame).map noncePair ∧ Accepts sender nonce before after

theorem Accepts.acceptedPart (h : Accepts sender nonce before after)
    : Deployment.acceptedPart after.storage = Deployment.acceptedPart before.storage ++ [(sender, nonce)] := by
  rw [h.2]
  rfl

/-- A write accepts at most the nonce of one operation. -/
def NonceWrite (d : Deployment X) (frame : Frame Message) (before after : World (Chain X)) : Prop :=
  acceptedPart after.storage = acceptedPart before.storage
    ∨ ∃ sender nonce, AcceptsOp d frame sender nonce before after

theorem mem_opsOf {opas : List UserOpsPerAggregator} {beneficiary : Address} (hself : msg.self = d.entryPoint)
    (hopas : bundleOf (decodeMessage d.cfg msg.message) = some (opas, beneficiary))
    : d.opsOf msg = (UserOpsPerAggregator.flatten opas).map Prod.snd := by
  unfold opsOf groupsOf
  rw [if_pos hself, hopas]
  rfl

theorem Bundling.nonceWrite {opas : List UserOpsPerAggregator} {beneficiary : Address}
    {opInfos : List UserOpInfo} (hself : msg.self = d.entryPoint)
    (hopas : bundleOf (decodeMessage d.cfg msg.message) = some (opas, beneficiary))
    (h : Bundling d msg opas beneficiary opInfos t (.sstore before after))
    : NonceWrite d msg before after := by
  cases h with
  | guards h =>
    obtain ⟨entered, rfl⟩ := h
    exact .inl rfl
  | @validating aop opInfo t' _ hmem hop _ he =>
    cases hop.events _ he with
    | locks h =>
      rw [h.2]
      exact .inl rfl
    | accepts h =>
      refine .inr ⟨aop.2.sender, aop.2.nonce, ?_, h⟩
      rw [mem_opsOf hself hopas]
      have hop' := List.mem_map_of_mem (f := Prod.snd) (List.of_mem_zip hmem).1
      exact List.mem_map_of_mem hop'
  | credits h =>
    rw [h.2]
    exact .inl rfl
  | charges h | pays h =>
    cases h
    exact .inl rfl

theorem Effect.nonceWrite (hself : msg.self = d.entryPoint)
    (h : Effect d msg (decodeMessage d.cfg msg.message) t) (hmem : .sstore before after ∈ t)
    : NonceWrite d msg before after := by
  generalize hmessage : decodeMessage d.cfg msg.message = message at h
  cases h with
  | deposit | addStake | unlockStake | withdrawStake | withdrawTo | incrementNonce =>
    simp only [List.mem_cons, Event.sstore.injEq, reduceCtorEq, List.not_mem_nil, or_false] at hmem
    obtain ⟨rfl, rfl⟩ := hmem
    exact .inl rfl
  | view => exact absurd hmem List.not_mem_nil
  | bundle hopas hbundle _ =>
    rw [← hmessage] at hopas
    exact (hbundle.bundling _ hmem).nonceWrite hself hopas
  | inner _ hcall hpost hsettled =>
    apply Or.inl
    rcases hsettled.innerWrite hcall hpost hmem with h | h
    . rw [h.2]
      rfl
    . cases h
      rfl

/-- A write of a frame that does not revert, whoever it belongs to. -/
theorem invoke_nonceWrite {n : Nat} {s : State (Chain X)} (hok : (invoke d.system n frame s).ok = true)
    (hmem : .sstore before after ∈ (invoke d.system n frame s).body)
    : NonceWrite d frame before after := by
  by_cases hself : frame.self = d.entryPoint
  . obtain ⟨w, t, _, hbody, heffect⟩ := invoke_effect hself hok
    rw [hbody] at hmem
    exact heffect.nonceWrite hself ((List.mem_cons.mp hmem).resolve_left fun h => by cases h)
  . have hsame := invoke_other_sstore hself hok hmem
    exact .inl (congrArg (fun s => s.books.accepted) hsame)

/-- The nonces that a write adds to those that have been accepted. -/
def acceptedBy (v : Write (Chain X) Message ReturnData Log) : List (Address × Word) :=
  (acceptedPart v.after.storage).drop (acceptedPart v.before.storage).length

theorem Accepts.acceptedBy {whole : Chain.Trace X} (h : Accepts sender nonce before after)
    : acceptedBy ⟨frame, whole, before, after⟩ = [(sender, nonce)] := by
  unfold Deployment.acceptedBy
  rw [h.acceptedPart, List.drop_left]

theorem NonceWrite.acceptedPart {v : Write (Chain X) Message ReturnData Log}
    (h : NonceWrite d v.frame v.before v.after)
    : Deployment.acceptedPart v.after.storage
        = Deployment.acceptedPart v.before.storage ++ acceptedBy v := by
  rcases h with heq | ⟨sender, nonce, _, haccepts⟩
  . unfold acceptedBy
    rw [heq, List.drop_length, List.append_nil]
  . rw [haccepts.acceptedPart, haccepts.acceptedBy]

/-- The writes are all that adds to the nonces that have been accepted. -/
theorem acceptedPart_eq {ws : List (Write (Chain X) Message ReturnData Log)}
    {used used' : List (Address × Word)} (h : Chained acceptedPart used ws used')
    (hws : ∀ v ∈ ws, NonceWrite d v.frame v.before v.after)
    : used' = used ++ ws.flatMap acceptedBy := by
  induction h with
  | nil => exact (List.append_nil _).symm
  | @cons v used' ws _ ih =>
    have hfirst := (hws v List.mem_cons_self).acceptedPart
    rw [ih fun v hv => hws v (List.mem_cons_of_mem _ hv), hfirst, List.flatMap_cons, List.append_assoc]

/-! ## The operations of a bundle -/

theorem Validations.accepts {whole : Chain.Trace X} {ops : List (Address × PackedUserOperation)}
    {opInfos : List UserOpInfo} (h : Validations d msg ops opInfos t)
    : ((ops.map Prod.snd).map noncePair).Subperm ((ownWrites msg whole t).flatMap acceptedBy) := by
  induction h with
  | nil => exact List.Subperm.refl _
  | @cons aggregator op ops opInfo opInfos t t' hop _ ih =>
    rw [ownWrites_append, List.flatMap_append]
    obtain ⟨before, after, hmem, haccepts⟩ := hop.nonce
    have hfirst : noncePair op ∈ (ownWrites msg whole t).flatMap acceptedBy := by
      refine List.mem_flatMap.mpr ⟨_, mem_ownWrites hmem, ?_⟩
      rw [haccepts.acceptedBy]
      exact List.mem_singleton_self _
    exact (List.singleton_subperm_iff.mpr hfirst).append ih

theorem ownWrites_subperm (whole t1 t2 t3 : Chain.Trace X)
    : ((ownWrites msg whole t2).flatMap acceptedBy).Subperm
        ((ownWrites msg whole (t1 ++ t2 ++ t3)).flatMap acceptedBy) := by
  rw [ownWrites_append, ownWrites_append, List.flatMap_append, List.flatMap_append]
  exact ((List.sublist_append_right _ _).trans (List.sublist_append_left _ _)).subperm

/-- All operations of a bundle that does not revert are accepted by writes of its own. -/
theorem invoke_accepts {n : Nat} {s : State (Chain X)} (hok : (invoke d.system n frame s).ok = true)
    : ((d.opsOf frame).map noncePair).Subperm
        ((ownWrites frame (invoke d.system n frame s).body (invoke d.system n frame s).body).flatMap
          acceptedBy) := by
  by_cases hself : frame.self = d.entryPoint
  . cases hopas : bundleOf (decodeMessage d.cfg frame.message) with
    | none =>
      have hnone : d.opsOf frame = [] := by
        unfold opsOf groupsOf
        rw [if_pos hself, hopas]
        rfl
      rw [hnone]
      exact List.nil_subperm
    | some bundle =>
      obtain ⟨opas, beneficiary⟩ := bundle
      obtain ⟨w, opInfos, costs, t, hbody, hrun⟩ := invoke_bundle hself hopas hok
      obtain @⟨before0, after0, ts, tv, te, before1, after1, before2, after2, ret, body, before3, after3,
        _, _, hvalidations, _, _, _, ht⟩ := hrun
      rw [mem_opsOf hself hopas]
      apply List.Subperm.trans (hvalidations.accepts)
      rw [hbody, ht]
      exact ownWrites_subperm _ (.enter w :: .sstore before0 after0 :: ts) tv _
  . have hnone : d.opsOf frame = [] := by
      unfold opsOf groupsOf
      rw [if_neg hself]
      rfl
    rw [hnone]
    exact List.nil_subperm

/-! ## Runs -/

/-- The operations of the bundles that a transaction leaves behind. -/
def acceptedOps (d : Deployment X) (depth : Nat) (tx : Transaction Message) (w : World (Chain X))
    : List PackedUserOperation :=
  (frames (d.happens depth tx w)).flatMap d.opsOf

/-- A run from the start: its writes, the operations that it has accepted, and the world that it leads
to. -/
inductive Ran (d : Deployment X) : List (Write (Chain X) Message ReturnData Log) →
    List PackedUserOperation → World (Chain X) → Prop where
  | genesis (ledger : Ledger) (rest : X) : Ran d [] [] ⟨ledger, ⟨genesis, rest⟩⟩
  | transaction {ws ops w} (depth : Nat) (tx : Transaction Message) :
      Ran d ws ops w → tx.origin ≠ d.entryPoint →
      Ran d (ws ++ d.committedWrites depth tx w) (ops ++ d.acceptedOps depth tx w)
        (execute d.system depth tx w).state.world
  | block {ws ops w} (ledger : Ledger) :
      Ran d ws ops w → w.ledger.balance d.entryPoint ≤ ledger.balance d.entryPoint →
      Ran d ws ops { w with ledger := ledger }

variable {ws : List (Write (Chain X) Message ReturnData Log)} {ops : List PackedUserOperation}
  {w : World (Chain X)}

theorem Ran.reachable (h : d.Ran ws ops w) : d.Reachable w := by
  induction h with
  | genesis ledger rest => exact .genesis ledger rest
  | transaction depth tx _ htx ih => exact .transaction depth tx ih htx
  | block ledger _ hledger ih => exact .block ledger ih hledger

theorem committedWrites_nonceWrite {depth : Nat} {tx : Transaction Message}
    : ∀ v ∈ d.committedWrites depth tx w, NonceWrite d v.frame v.before v.after := by
  intro v hv
  obtain ⟨_, n, s, hok, hbody, hmem⟩ := of_committedWrites hv
  rw [← hbody] at hmem
  exact invoke_nonceWrite hok hmem

theorem Ran.nonceWrite (h : d.Ran ws ops w) : ∀ v ∈ ws, NonceWrite d v.frame v.before v.after := by
  induction h with
  | genesis => exact fun v hv => absurd hv List.not_mem_nil
  | transaction depth tx _ _ ih =>
    intro v hv
    rcases List.mem_append.mp hv with hv | hv
    . exact ih v hv
    . exact committedWrites_nonceWrite v hv
  | block _ _ _ ih => exact ih

/-- The nonces that have been accepted at the end are those of the writes, in order. -/
theorem Ran.acceptedPart (h : d.Ran ws ops w)
    : Deployment.acceptedPart w.storage = ws.flatMap acceptedBy := by
  induction h with
  | genesis => rfl
  | transaction depth tx _ _ ih =>
    rw [List.flatMap_append, ← ih]
    exact acceptedPart_eq (committedWrites_chained Deployment.acceptedPart depth tx rfl)
      committedWrites_nonceWrite
  | block _ _ _ ih => exact ih

theorem acceptedOps_count_le (depth : Nat) (tx : Transaction Message) (w : World (Chain X))
    (p : Address × Word)
    : ((d.acceptedOps depth tx w).map noncePair).count p
        ≤ ((d.committedWrites depth tx w).flatMap acceptedBy).count p := by
  rw [acceptedOps, committedWrites, happens, List.map_flatMap]
  generalize (⟨{ w with storage := d.system.clearTransient w.storage }, tx.gas, 0⟩ : State (Chain X)) = s
  change List.count p (List.flatMap _ (frames [.call tx.frame s.world _ (invoke d.system depth tx.frame s).ok _
      (invoke d.system depth tx.frame s).body]))
    ≤ List.count p (List.flatMap acceptedBy (writes tx.frame [] [.call tx.frame s.world _
      (invoke d.system depth tx.frame s).ok _ (invoke d.system depth tx.frame s).body]))
  cases hok : (invoke d.system depth tx.frame s).ok with
  | false => exact Nat.le_refl _
  | true =>
    have hcount := invoke_count_le d.system (f := fun frame => (d.opsOf frame).map noncePair)
      (g := acceptedBy) (fun n frame s hok a => (invoke_accepts hok).count_le a) hok p
    simp only [frames, Event.frames, writes, Event.writes, List.append_nil]
    exact hcount

theorem Ran.count_le (h : d.Ran ws ops w) (p : Address × Word)
    : (ops.map noncePair).count p ≤ (ws.flatMap acceptedBy).count p := by
  induction h with
  | genesis => exact Nat.le_refl _
  | @transaction ws ops w depth tx _ _ ih =>
    have hlast := acceptedOps_count_le (d := d) depth tx w p
    rw [List.map_append, List.count_append, List.flatMap_append, List.count_append]
    exact Nat.add_le_add ih hlast
  | block _ _ _ ih => exact ih

/-! ## Replay protection -/

theorem NonceWrite.acceptsOp {v : Write (Chain X) Message ReturnData Log}
    (h : NonceWrite d v.frame v.before v.after) (hmem : (sender, nonce) ∈ acceptedBy v)
    : AcceptsOp d v.frame sender nonce v.before v.after := by
  rcases h with heq | ⟨sender', nonce', hop, haccepts⟩
  . unfold acceptedBy at hmem
    rw [heq, List.drop_length] at hmem
    exact absurd hmem List.not_mem_nil
  . rw [haccepts.acceptedBy] at hmem
    cases List.mem_singleton.mp hmem
    exact ⟨hop, haccepts⟩

theorem Ran.increasing (h : d.Ran ws ops w)
    : (ws.flatMap acceptedBy).Pairwise fun p q =>
        p.1 = q.1 → nonceKey p.2 = nonceKey q.2 → nonceSeq p.2 < nonceSeq q.2 := by
  rw [← h.acceptedPart]
  exact h.reachable.holds.fresh.increasing

/-- An operation of a bundle that does not revert is the only one with its nonce, and the sequence
numbers of each sender and key go up. Only the nonce that `getNonce` returns is accepted next. -/
theorem accepted_once (h : d.Ran ws ops w)
    : (ops.map noncePair).Nodup
      ∧ (∀ op ∈ ops, ∃ v ∈ ws, AcceptsOp d v.frame op.sender op.nonce v.before v.after)
      ∧ ws.Pairwise (fun u v => ∀ sender nonce nonce', AcceptsOp d u.frame sender nonce u.before u.after →
          AcceptsOp d v.frame sender nonce' v.before v.after → nonceKey nonce = nonceKey nonce' →
          nonceSeq nonce < nonceSeq nonce')
      ∧ (∀ v ∈ ws, ∀ sender nonce, AcceptsOp d v.frame sender nonce v.before v.after →
          nonce.toNat = v.before.storage.entryPoint.getNonce sender (nonceKey nonce))
      ∧ ∀ inv msg s s' t sender nonce ok,
          s.world.storage.entryPoint.nonceSequenceNumber sender (nonceKey nonce) < 2 ^ 64 →
          d.Returns inv msg (validateAndUpdateNonce sender nonce) s ok s' t →
          (ok = true ↔ nonce.toNat = s.world.storage.entryPoint.getNonce sender (nonceKey nonce)) := by
  refine ⟨?_, ?_, ?_, ?_, ?_⟩
  . apply List.nodup_iff_count_le_one.mpr
    intro p
    have hnodup : (ws.flatMap acceptedBy).Nodup := by
      apply h.increasing.imp
      rintro p q hlt rfl
      exact absurd (hlt rfl rfl) (Nat.lt_irrefl _)
    exact (h.count_le p).trans (List.nodup_iff_count_le_one.mp hnodup p)
  . intro op hop
    have hmem : noncePair op ∈ ws.flatMap acceptedBy := by
      apply List.count_pos_iff.mp
      have hpos : 0 < (ops.map noncePair).count (noncePair op) :=
        List.count_pos_iff.mpr (List.mem_map_of_mem hop)
      exact Nat.lt_of_lt_of_le hpos (h.count_le _)
    obtain ⟨v, hv, hmem⟩ := List.mem_flatMap.mp hmem
    exact ⟨v, hv, (h.nonceWrite v hv).acceptsOp hmem⟩
  . apply (List.pairwise_flatMap.mp h.increasing).2.imp
    intro u v hlt sender nonce nonce' hu hv hkey
    have hmem : (sender, nonce) ∈ acceptedBy u := by
      rw [hu.2.acceptedBy]
      exact List.mem_singleton_self _
    have hmem' : (sender, nonce') ∈ acceptedBy v := by
      rw [hv.2.acceptedBy]
      exact List.mem_singleton_self _
    exact hlt (sender, nonce) hmem (sender, nonce') hmem' rfl hkey
  . intro v _ sender nonce ⟨_, hseq, _⟩
    apply (Storage.eq_getNonce_iff _).mpr hseq
    rw [hseq]
    exact Nat.mod_lt _ (by omega)
  . intro inv msg s s' t sender nonce ok hlt hrun
    rw [Storage.eq_getNonce_iff hlt]
    obtain ⟨s1, hw, hrun⟩ := hrun.bind_sload
    obtain ⟨next, hnext, hrun⟩ := Returns.bind_lift hrun
    obtain ⟨s2, t1, _, _, hrun⟩ := hrun.bind_sstore
    obtain ⟨hok, _, _⟩ := hrun.pure
    rw [hok]
    exact beq_iff_eq

/-- The account at `3` has two operations, with one key. -/
theorem accepted_once_mixedTx
    : ∃ ws ops, mixed.Ran ws ops (execute mixed.system 7 mixedTx mixedWorld).state.world
        ∧ ops = [callOp 3 0, paidOp 3 1, paidOp 7 0]
        ∧ (ops.map noncePair).Nodup
        ∧ ∀ op ∈ ops, ∃ v ∈ ws, AcceptsOp mixed v.frame op.sender op.nonce v.before v.after
            ∧ op.nonce.toNat = v.before.storage.entryPoint.getNonce op.sender (nonceKey op.nonce) := by
  have hstart : mixed.Ran [] [] ⟨mixedLedger, ⟨genesis, ()⟩⟩ := .genesis mixedLedger ()
  have hhalf : mixed.Ran _ _ halfFundedWorld := .transaction 2 (depositFor 3) hstart (by decide)
  have hfunded : mixed.Ran _ _ mixedWorld := .transaction 2 (depositFor 8) hhalf (by decide)
  have hrun := Ran.transaction 7 mixedTx hfunded (by decide)
  have hops : [] ++ mixed.acceptedOps 2 (depositFor 3) ⟨mixedLedger, ⟨genesis, ()⟩⟩
        ++ mixed.acceptedOps 2 (depositFor 8) halfFundedWorld ++ mixed.acceptedOps 7 mixedTx mixedWorld
      = [callOp 3 0, paidOp 3 1, paidOp 7 0] := by
    decide +kernel
  obtain ⟨hnodup, haccepted, _, hnonce, _⟩ := accepted_once hrun
  refine ⟨_, _, hrun, hops, hnodup, ?_⟩
  intro op hop
  obtain ⟨v, hv, haccepts⟩ := haccepted op hop
  exact ⟨v, hv, haccepts, hnonce v hv op.sender op.nonce haccepts⟩

end Deployment
