import FalconSmartAccount.EntryPoint.Deployment

/-!
The invariant of the entry point. It can always pay what it owes: all deposits and stakes, and during
a bundle the prefunds that are not yet settled and what has been collected from those that are. And
no nonce has been accepted twice.
-/

open Evm

namespace EntryPoint

namespace Storage

/-- The sum of all deposits and stakes. -/
@[irreducible]
def owed (s : Storage) : Nat := ∑ a, (s.deposits a).deposit + ∑ a, (s.deposits a).stake

theorem owed_congr {s s' : Storage} (h : s.deposits = s'.deposits) : s.owed = s'.owed := by
  unfold owed
  rw [h]

theorem owed_setInfo (s : Storage) (a : Address) (info : DepositInfo)
    : (s.setInfo a info).owed + (s.deposits a).deposit + (s.deposits a).stake
        = s.owed + info.deposit + info.stake := by
  have hd : (fun b => ((s.setInfo a info).deposits b).deposit)
      = Function.update (fun b => (s.deposits b).deposit) a info.deposit := by
    funext b
    exact Function.apply_update (fun _ i => DepositInfo.deposit i) s.deposits a info b
  have hs : (fun b => ((s.setInfo a info).deposits b).stake)
      = Function.update (fun b => (s.deposits b).stake) a info.stake := by
    funext b
    exact Function.apply_update (fun _ i => DepositInfo.stake i) s.deposits a info b
  have h1 := sum_update (fun b => (s.deposits b).deposit) a info.deposit
  have h2 := sum_update (fun b => (s.deposits b).stake) a info.stake
  rw [← hd] at h1
  rw [← hs] at h2
  dsimp only at h1 h2
  unfold owed
  omega

theorem owed_setDeposit (s : Storage) (a : Address) (deposit : Nat)
    : (s.setDeposit a deposit).owed + (s.deposits a).deposit = s.owed + deposit := by
  have h := s.owed_setInfo a { s.deposits a with deposit := deposit }
  exact Nat.add_right_cancel h

theorem deposit_le_owed (s : Storage) (a : Address) : (s.deposits a).deposit ≤ s.owed := by
  unfold owed
  have hle : (s.deposits a).deposit ≤ ∑ b, (s.deposits b).deposit :=
    Finset.single_le_sum (f := fun b => (s.deposits b).deposit) (fun _ _ => Nat.zero_le _) (Finset.mem_univ a)
  exact hle.trans (Nat.le_add_right _ _)

@[simp]
theorem owed_note (s : Storage) (f : Books → Books) : (s.note f).owed = s.owed := owed_congr rfl

@[simp]
theorem owed_setNonce (s : Storage) (a : Address) (key : BitVec 192) (n : Nat)
    : (s.setNonce a key n).owed = s.owed :=
  owed_congr rfl

@[simp]
theorem books_note (s : Storage) (f : Books → Books) : (s.note f).books = f s.books := rfl

@[simp]
theorem books_setDeposit (s : Storage) (a : Address) (n : Nat) : (s.setDeposit a n).books = s.books :=
  rfl

@[simp]
theorem books_setInfo (s : Storage) (a : Address) (info : DepositInfo)
    : (s.setInfo a info).books = s.books :=
  rfl

@[simp]
theorem books_setNonce (s : Storage) (a : Address) (key : BitVec 192) (n : Nat)
    : (s.setNonce a key n).books = s.books :=
  rfl

/-! ## Nonces -/

/-- The sequence numbers that `sender` has used with a key are below the next one, and have been
accepted in increasing order. -/
structure Fresh (s : Storage) : Prop where
  below : ∀ p ∈ s.books.accepted, nonceSeq p.2 < s.nonceSequenceNumber p.1 (nonceKey p.2)
  increasing : s.books.accepted.Pairwise fun p q =>
    p.1 = q.1 → nonceKey p.2 = nonceKey q.2 → nonceSeq p.2 < nonceSeq q.2

theorem Fresh.congr {s s' : Storage} (h : s.Fresh) (ha : s'.books.accepted = s.books.accepted)
    (hn : s'.nonceSequenceNumber = s.nonceSequenceNumber)
    : s'.Fresh :=
  ⟨by rw [ha, hn]; exact h.below, by rw [ha]; exact h.increasing⟩

theorem le_setNonce_succ (s : Storage) (a : Address) (key : BitVec 192) (b : Address)
    (key' : BitVec 192)
    : s.nonceSequenceNumber b key'
        ≤ (s.setNonce a key (s.nonceSequenceNumber a key + 1)).nonceSequenceNumber b key' := by
  unfold setNonce
  simp only [Function.update_apply]
  split
  . next hb =>
    subst hb
    simp only [Function.update_apply]
    split
    . next hk =>
      subst hk
      exact Nat.le_succ _
    . exact Nat.le_refl _
  . exact Nat.le_refl _

theorem setNonce_self (s : Storage) (a : Address) (key : BitVec 192) (n : Nat)
    : (s.setNonce a key n).nonceSequenceNumber a key = n := by
  unfold setNonce
  simp

theorem Fresh.setNonce_succ {s : Storage} (h : s.Fresh) (a : Address) (key : BitVec 192)
    : (s.setNonce a key (s.nonceSequenceNumber a key + 1)).Fresh :=
  ⟨fun p hp => Nat.lt_of_lt_of_le (h.below p hp) (s.le_setNonce_succ a key p.1 (nonceKey p.2)),
    h.increasing⟩

theorem Fresh.accept {s : Storage} (h : s.Fresh) {a : Address} {nonce : Word}
    (hseq : s.nonceSequenceNumber a (nonceKey nonce) = nonceSeq nonce)
    : ((s.setNonce a (nonceKey nonce) (s.nonceSequenceNumber a (nonceKey nonce) + 1)).note
        (Books.accept a nonce)).Fresh := by
  have h' := h.setNonce_succ a (nonceKey nonce)
  constructor
  . intro p hp
    rcases List.mem_append.mp hp with hp | hp
    . exact h'.below p hp
    . rw [List.mem_singleton.mp hp]
      change _ < (s.setNonce _ _ _).nonceSequenceNumber a (nonceKey nonce)
      rw [setNonce_self, hseq]
      exact Nat.lt_succ_self _
  . refine List.pairwise_append.mpr ⟨h.increasing, List.pairwise_singleton _ _, ?_⟩
    intro p hp q hq hsender hkey
    rw [List.mem_singleton.mp hq] at hsender hkey ⊢
    have := h.below p hp
    rwa [hsender, hkey, hseq] at this

end Storage

end EntryPoint

namespace Deployment

open EntryPoint

variable {X : Type} (d : Deployment X)

/-- The balance covers deposits, stakes, locked prefunds and what has been collected. -/
def Solvent (w : World (Chain X)) : Prop :=
  w.storage.entryPoint.owed + w.storage.entryPoint.books.locked + w.storage.entryPoint.books.collected
    ≤ w.ledger.balance d.entryPoint

structure Safe (w : World (Chain X)) : Prop where
  solvent : d.Solvent w
  fresh : w.storage.entryPoint.Fresh

/-- Safe with `k` to spare, given what the books say, the nonces in `used` having been accepted. -/
structure Holds (used : List (Address × Word)) (k locked collected : Nat) (w : World (Chain X))
    : Prop where
  covered : w.storage.entryPoint.owed + locked + collected + k ≤ w.ledger.balance d.entryPoint
  locked : w.storage.entryPoint.books.locked = locked
  collected : w.storage.entryPoint.books.collected = collected
  fresh : w.storage.entryPoint.Fresh
  used : used.Sublist w.storage.entryPoint.books.accepted

variable {d} {used : List (Address × Word)} {k locked collected : Nat} {w : World (Chain X)}

theorem Holds.safe (h : d.Holds used k locked collected w) : d.Safe w := by
  refine ⟨?_, h.fresh⟩
  unfold Solvent
  rw [h.locked, h.collected]
  exact Nat.le_trans (Nat.le_add_right _ _) h.covered

theorem Safe.holds (h : d.Safe w)
    : d.Holds w.storage.entryPoint.books.accepted 0 w.storage.entryPoint.books.locked w.storage.entryPoint.books.collected w :=
  ⟨(Nat.add_zero _).symm ▸ h.solvent, rfl, rfl, h.fresh, .refl _⟩

theorem Holds.weaken {k' : Nat} (h : d.Holds used k locked collected w) (hk : k' ≤ k)
    : d.Holds used k' locked collected w :=
  ⟨Nat.le_trans (Nat.add_le_add_left hk _) h.covered, h.locked, h.collected, h.fresh, h.used⟩

theorem Holds.all (h : d.Holds used k locked collected w)
    : d.Holds w.storage.entryPoint.books.accepted k locked collected w :=
  ⟨h.covered, h.locked, h.collected, h.fresh, .refl _⟩

/-- Forget about the last nonces. -/
theorem Holds.unuse {used' : List (Address × Word)} (h : d.Holds (used ++ used') k locked collected w)
    : d.Holds used k locked collected w :=
  ⟨h.covered, h.locked, h.collected, h.fresh, (List.sublist_append_left used used').trans h.used⟩

/-- What the invariant depends on. -/
theorem Holds.congr {w' : World (Chain X)} (h : d.Holds used k locked collected w)
    (hdeposits : w'.storage.entryPoint.deposits = w.storage.entryPoint.deposits)
    (hnonces : w'.storage.entryPoint.nonceSequenceNumber = w.storage.entryPoint.nonceSequenceNumber)
    (hbooks : w'.storage.entryPoint.books = w.storage.entryPoint.books)
    (hbalance : w.ledger.balance d.entryPoint ≤ w'.ledger.balance d.entryPoint)
    : d.Holds used k locked collected w' := by
  refine ⟨?_, by rw [hbooks]; exact h.locked, by rw [hbooks]; exact h.collected,
    h.fresh.congr (by rw [hbooks]) hnonces, by rw [hbooks]; exact h.used⟩
  rw [Storage.owed_congr hdeposits]
  exact Nat.le_trans h.covered hbalance

/-- Everything the books say fits the balance, and so fits a word. -/
theorem Holds.collected_lt (h : d.Holds used k locked collected w) : locked + collected < 2 ^ 256 := by
  have := h.covered
  have := w.ledger.balance_lt d.entryPoint
  omega

/-- A write of the entry point, by what it does to the sum of deposits and stakes and to the books. -/
theorem Holds.write {used' : List (Address × Word)} {k' locked' collected' : Nat}
    {f : Storage → Storage} (h : d.Holds used k locked collected w)
    (howed : (f w.storage.entryPoint).owed + locked' + collected' + k'
      ≤ w.storage.entryPoint.owed + locked + collected + k)
    (hlocked : (f w.storage.entryPoint).books.locked = locked')
    (hcollected : (f w.storage.entryPoint).books.collected = collected')
    (hfresh : w.storage.entryPoint.Fresh → (f w.storage.entryPoint).Fresh)
    (hused : used'.Sublist (f w.storage.entryPoint).books.accepted)
    : d.Holds used' k' locked' collected' (w.write Chain.entryPointPart f) :=
  ⟨Nat.le_trans howed h.covered, hlocked, hcollected, hfresh h.fresh, hused⟩

/-- A write that leaves the nonces alone. -/
theorem Holds.writeDeposits {k' locked' collected' : Nat} {f : Storage → Storage}
    (h : d.Holds used k locked collected w)
    (howed : (f w.storage.entryPoint).owed + locked' + collected' + k'
      ≤ w.storage.entryPoint.owed + locked + collected + k)
    (hlocked : (f w.storage.entryPoint).books.locked = locked')
    (hcollected : (f w.storage.entryPoint).books.collected = collected')
    (haccepted : (f w.storage.entryPoint).books.accepted = w.storage.entryPoint.books.accepted)
    (hnonces : (f w.storage.entryPoint).nonceSequenceNumber = w.storage.entryPoint.nonceSequenceNumber)
    : d.Holds used k' locked' collected' (w.write Chain.entryPointPart f) :=
  h.write howed hlocked hcollected (fun hfresh => hfresh.congr haccepted hnonces)
    (by rw [haccepted]; exact h.used)

/-- What comes with a call is to spare once it has arrived. -/
theorem Holds.transfer {frame : Frame Message} {ledger : Ledger}
    (h : d.Holds used (if frame.caller = d.entryPoint then frame.value else 0) locked collected w)
    (ht : w.ledger.transfer frame.caller frame.self frame.value = some ledger)
    : d.Holds used (if frame.self = d.entryPoint then frame.value else 0) locked collected
        { w with ledger := ledger } := by
  refine ⟨?_, h.locked, h.collected, h.fresh, h.used⟩
  have hb := Ledger.transfer_balance ht d.entryPoint
  have hc := h.covered
  simp only [eq_comm (a := d.entryPoint)] at hb
  dsimp only
  omega

end Deployment
