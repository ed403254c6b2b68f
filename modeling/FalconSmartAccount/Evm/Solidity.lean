import FalconSmartAccount.Evm.Word

/-!
Solidity's checked arithmetic and the ways in which a call without inline assembly can revert.
-/

inductive Revert where
  | panic (code : Nat)
  | error (reason : String)
  | outOfGas
  deriving DecidableEq, Repr

namespace Revert

/-- `assert` failed. -/
abbrev assertion : Revert := .panic 0x01

/-- Checked arithmetic over- or underflowed. -/
abbrev arithmetic : Revert := .panic 0x11

/-- Division or reduction modulo zero. -/
abbrev divisionByZero : Revert := .panic 0x12

/-- An array index is out of bounds. -/
abbrev outOfBounds : Revert := .panic 0x32

/-- Too much memory is needed. -/
abbrev allocation : Revert := .panic 0x41

end Revert

abbrev Checked := Except Revert

namespace Checked

@[simp]
theorem ok_bind (a : α) (f : α → Checked β) : ((.ok a : Checked α) >>= f) = f a := rfl

@[simp]
theorem error_bind (e : Revert) (f : α → Checked β) : ((.error e : Checked α) >>= f) = .error e := rfl

@[simp]
theorem pure_eq (a : α) : (pure a : Checked α) = .ok a := rfl

/-- A sequence returns only if both parts do. -/
theorem bind_eq_ok {x : Checked α} {f : α → Checked β} {b : β}
    : (x >>= f) = .ok b ↔ ∃ a, x = .ok a ∧ f a = .ok b := by
  cases x with
  | error e => simp
  | ok a => simp

/-- A loop over an array none of whose rounds reverts. -/
theorem mapM_ok {xs : List α} {f : α → Checked β} {g : α → β} (h : ∀ x ∈ xs, f x = .ok (g x))
    : xs.mapM f = .ok (xs.map g) := by
  induction xs with
  | nil => rfl
  | cons x xs ih =>
    rw [List.mapM_cons, h x List.mem_cons_self, ih (fun y hy => h y (List.mem_cons_of_mem x hy))]
    rfl

/-- Such a loop reverts as soon as one of its rounds does. -/
theorem mapM_error {xs : List α} {f : α → Checked β} {e : Revert} {x : α} (hx : x ∈ xs)
    (h : f x = .error e) (hall : ∀ y ∈ xs, ∀ e', f y = .error e' → e' = e)
    : xs.mapM f = .error e := by
  induction xs with
  | nil => cases hx
  | cons y ys ih =>
    rw [List.mapM_cons]
    cases hy : f y with
    | error e' =>
      rw [hall y List.mem_cons_self e' hy]
      rfl
    | ok b =>
      have hmem : x ∈ ys := by
        cases hx with
        | head => rw [h] at hy; cases hy
        | tail _ hmem => exact hmem
      rw [ok_bind, ih hmem (fun z hz => hall z (List.mem_cons_of_mem y hz))]
      rfl

end Checked

namespace Solidity

def add (a b : Nat) : Checked Nat :=
  if a + b < Yul.wordSize then .ok (a + b) else .error .arithmetic

def sub (a b : Nat) : Checked Nat :=
  if b ≤ a then .ok (a - b) else .error .arithmetic

def mul (a b : Nat) : Checked Nat :=
  if a * b < Yul.wordSize then .ok (a * b) else .error .arithmetic

def div (a b : Nat) : Checked Nat :=
  if b = 0 then .error .divisionByZero else .ok (a / b)

def mod (a b : Nat) : Checked Nat :=
  if b = 0 then .error .divisionByZero else .ok (a % b)

def addmod (a b m : Nat) : Checked Nat :=
  if m = 0 then .error .divisionByZero else .ok (Yul.addmod a b m)

def mulmod (a b m : Nat) : Checked Nat :=
  if m = 0 then .error .divisionByZero else .ok (Yul.mulmod a b m)

def require (c : Bool) (reason : String) : Checked Unit :=
  if c then .ok () else .error (.error reason)

def assert (c : Bool) : Checked Unit :=
  if c then .ok () else .error .assertion

/-- `new bytes(length)` at the free memory pointer, which is moved behind it. -/
def newBytes (memory length : Nat) : Checked Nat :=
  let memory := memory + 32 + (length + 31) / 32 * 32
  if memory < 2 ^ 64 then .ok memory else .error .allocation

def get (a : List Nat) (i : Nat) : Checked Nat :=
  match a[i]? with
  | some v => .ok v
  | none => .error .outOfBounds

def set (a : List Nat) (i v : Nat) : Checked (List Nat) :=
  if i < a.length then .ok (a.set i v) else .error .outOfBounds

@[simp]
theorem add_ok {a b : Nat} (h : a + b < Yul.wordSize) : add a b = .ok (a + b) :=
  if_pos h

theorem eq_of_add {a b c : Nat} (h : add a b = .ok c) : c = a + b := by
  unfold add at h
  split at h
  . cases h
    rfl
  . cases h

theorem lt_of_add {a b c : Nat} (h : add a b = .ok c) : a + b < Yul.wordSize := by
  unfold add at h
  split at h
  . assumption
  . cases h

@[simp]
theorem sub_ok {a b : Nat} (h : b ≤ a) : sub a b = .ok (a - b) :=
  if_pos h

@[simp]
theorem mul_ok {a b : Nat} (h : a * b < Yul.wordSize) : mul a b = .ok (a * b) :=
  if_pos h

@[simp]
theorem div_ok {a b : Nat} (h : 0 < b) : div a b = .ok (a / b) :=
  if_neg (Nat.pos_iff_ne_zero.mp h)

@[simp]
theorem mod_ok {a b : Nat} (h : 0 < b) : mod a b = .ok (a % b) :=
  if_neg (Nat.pos_iff_ne_zero.mp h)

@[simp]
theorem addmod_ok {a b m : Nat} (h : 0 < m) : addmod a b m = .ok (Yul.addmod a b m) :=
  if_neg (Nat.pos_iff_ne_zero.mp h)

@[simp]
theorem mulmod_ok {a b m : Nat} (h : 0 < m) : mulmod a b m = .ok (Yul.mulmod a b m) :=
  if_neg (Nat.pos_iff_ne_zero.mp h)

@[simp]
theorem assert_ok {c : Bool} (h : c = true) : assert c = .ok () :=
  if_pos h

theorem newBytes_ok {memory length : Nat} (h : memory + 32 + (length + 31) / 32 * 32 < 2 ^ 64)
    : newBytes memory length = .ok (memory + 32 + (length + 31) / 32 * 32) :=
  if_pos h

@[simp]
theorem get_ok {a : List Nat} {i : Nat} (h : i < a.length) : get a i = .ok (a.getD i 0) := by
  simp [get, h]

@[simp]
theorem set_ok {a : List Nat} {i v : Nat} (h : i < a.length) : set a i v = .ok (a.set i v) :=
  if_pos h

end Solidity
