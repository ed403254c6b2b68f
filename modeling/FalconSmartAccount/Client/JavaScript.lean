import FalconSmartAccount.Evm.Abi

/-!
Properties that hold numbers, and objects that are used as maps, in JavaScript.
-/

namespace JavaScript

/-- What a property holds that only numbers are assigned to. The numbers are integers that a double
represents exactly. -/
inductive Value where
  | undefined
  | nan
  | number (n : Int)
  deriving DecidableEq

namespace Value

/-- Arithmetic with `undefined` gives `NaN`. -/
def add : Value → Value → Value
  | .number a, .number b => .number (a + b)
  | _, _ => .nan

/-- No comparison with `undefined` or `NaN` is true. -/
def lt : Value → Value → Bool
  | .number a, .number b => a < b
  | _, _ => false

@[simp]
theorem undefined_add (a : Value) : add .undefined a = .nan := rfl

@[simp]
theorem nan_add (a : Value) : add .nan a = .nan := rfl

@[simp]
theorem number_add (a b : Int) : add (.number a) (.number b) = .number (a + b) := rfl

@[simp]
theorem undefined_lt (a : Value) : lt .undefined a = false := rfl

@[simp]
theorem nan_lt (a : Value) : lt .nan a = false := rfl

@[simp]
theorem lt_nan (a : Value) : lt a .nan = false := by
  cases a <;> rfl

@[simp]
theorem number_lt (a b : Int) : lt (.number a) (.number b) = decide (a < b) := rfl

end Value

/-- `parseInt` of a hex string, whose bytes these are. Up to six bytes are exact in a double. -/
def parseInt (bytes : Bytes) : Nat := Abi.uintAt bytes 0 bytes.length

/-- The properties that an object literal has from its prototype. None of them is an array. -/
def inherited : List String :=
  ["constructor", "__defineGetter__", "__defineSetter__", "hasOwnProperty", "__lookupGetter__",
    "__lookupSetter__", "isPrototypeOf", "propertyIsEnumerable", "toString", "valueOf", "__proto__",
    "toLocaleString"]

/-- Keys that are array indices come before all others. -/
def arrayIndex (key : String) : Option Nat :=
  let digits := key.toList
  let n := digits.foldl (fun n c => 10 * n + (c.toNat - '0'.toNat)) 0
  if digits.all Char.isDigit ∧ digits ≠ [] ∧ (digits.head? = some '0' → digits = ['0'])
      ∧ n < 2 ^ 32 - 1 then
    some n
  else
    none

/-- The own properties of an object, with their names in the order in which they were created. -/
structure Object (α : Type) where
  names : List String
  get : String → Option α
  nodup : names.Nodup
  mem_names : ∀ name, name ∈ names ↔ (get name).isSome

namespace Object

variable {α : Type}

def empty : Object α where
  names := []
  get _ := none
  nodup := List.nodup_nil
  mem_names _ := by simp

def set (o : Object α) (name : String) (value : α) : Object α where
  names := if name ∈ o.names then o.names else o.names ++ [name]
  get := Function.update o.get name (some value)
  nodup := by
    split
    . exact o.nodup
    . next hnew =>
      apply List.Nodup.append o.nodup (List.nodup_singleton name)
      exact List.disjoint_singleton.mpr hnew
  mem_names := by
    intro other
    by_cases hother : other = name
    . subst hother
      split <;> simp [*]
    . rw [Function.update_of_ne hother, ← o.mem_names]
      split
      . rfl
      . simp [hother]

/-- `Object.keys`. -/
def keys (o : Object α) : List String :=
  (o.names.filter fun name => (arrayIndex name).isSome).insertionSort
      (fun a b => (arrayIndex a).getD 0 ≤ (arrayIndex b).getD 0)
    ++ o.names.filter fun name => !(arrayIndex name).isSome

theorem get_set (o : Object α) (name other : String) (value : α)
    : (o.set name value).get other = if other = name then some value else o.get other := by
  unfold set
  dsimp only
  rw [Function.update_apply]

theorem keys_perm (o : Object α) : o.keys.Perm o.names := by
  unfold keys
  apply ((List.perm_insertionSort _ _).append_right _).trans
  exact List.filter_append_perm (fun name => (arrayIndex name).isSome) o.names

theorem keys_nodup (o : Object α) : o.keys.Nodup :=
  o.keys_perm.nodup_iff.mpr o.nodup

theorem mem_keys {o : Object α} {name : String} : name ∈ o.keys ↔ (o.get name).isSome := by
  rw [o.keys_perm.mem_iff]
  exact o.mem_names name

end Object

end JavaScript

open JavaScript in
example : ((Object.empty.set "0xb" 1).set "12" 2).keys = ["12", "0xb"] := by
  decide +kernel
