-- SUMMARY: JSON values as the serde_json crate has them, and how they are looked into.
import Mathlib.Data.List.Basic

/-!
# JSON

`serde_json::Value` with the functions that look into it. None of them fails: what is not there, or
is of another kind, is `none`.
-/

namespace Json

/-- A number: an integer of 64 bits, with or without a sign, or one that is no such integer. -/
inductive Number where
  | posInt (n : UInt64)
  | negInt (n : Int64) (neg : n.toInt < 0)
  | float (text : String)
  deriving DecidableEq

inductive Value where
  | null
  | bool (b : Bool)
  | number (n : Number)
  | string (s : String)
  | array (items : List Value)
  | object (fields : List (String × Value))

namespace Value

/-- The value of a key. -/
def lookup (fields : List (String × Value)) (key : String) : Option Value :=
  (fields.find? fun f => f.1 = key).map Prod.snd

/-- The value of a key of an object. -/
def get (v : Value) (key : String) : Option Value :=
  match v with
  | .object fields => lookup fields key
  | _ => none

def asStr : Value → Option String
  | .string s => some s
  | _ => none

def asArray : Value → Option (List Value)
  | .array items => some items
  | _ => none

def asU64 : Value → Option UInt64
  | .number (.posInt n) => some n
  | _ => none

/-- An integer that fits into 64 bits with a sign. -/
def asI64 : Value → Option Int
  | .number (.posInt n) => if (n.toNat : Int) < 9223372036854775808 then some n.toNat else none
  | .number (.negInt n _) => some n.toInt
  | _ => none

/-- The integer that a number is, of whatever size. -/
def integer : Value → Option Int
  | .number (.posInt n) => some n.toNat
  | .number (.negInt n _) => some n.toInt
  | _ => none

/-- What does not fit is not there. -/
theorem asI64_eq (v : Value) : v.asI64 = v.integer.filter fun n => decide (n < 9223372036854775808) := by
  unfold asI64 integer
  split
  · next n =>
    rw [Option.filter_some]
    simp only [decide_eq_true_eq]
  · next n _ =>
    have hlt : n.toInt < 9223372036854775808 := n.toInt_lt
    rw [Option.filter_some, if_pos (decide_eq_true hlt)]
  · rfl

theorem asI64_posInt {n : UInt64} (h : n.toNat < 9223372036854775808) :
    asI64 (.number (.posInt n)) = some (n.toNat : Int) := by
  have hlt : (n.toNat : Int) < 9223372036854775808 := by omega
  have hinteger : integer (.number (.posInt n)) = some (n.toNat : Int) := rfl
  rw [asI64_eq, hinteger, Option.filter_some, if_pos (decide_eq_true hlt)]

/-- An integer without a sign is what it is, and one below zero is not there. -/
theorem integer_of_asU64 (v : Value) : (∀ n, v.asU64 = some n → v.integer = some (n.toNat : Int)) ∧
    (v.asU64 = none → ∀ z, v.integer = some z → z < 0) := by
  unfold asU64 integer
  split
  · next n =>
    refine ⟨fun m hm => ?_, fun hm => ?_⟩
    · cases hm
      rfl
    · cases hm
  · next hpos =>
    refine ⟨fun m hm => ?_, fun _ z hz => ?_⟩
    · cases hm
    · split at hz
      · next n => exact (hpos n rfl).elim
      · next n hneg =>
        cases hz
        exact hneg
      · cases hz

theorem lookup_cons_self {key : String} {v : Value} {fields : List (String × Value)} :
    lookup ((key, v) :: fields) key = some v := by
  simp [lookup]

theorem lookup_cons_ne {key key' : String} {v : Value} {fields : List (String × Value)} (h : key' ≠ key) :
    lookup ((key', v) :: fields) key = lookup fields key := by
  unfold lookup
  rw [List.find?_cons_of_neg (by simpa using h)]

theorem lookup_append {key : String} {fields more : List (String × Value)} (h : lookup fields key = none) :
    lookup (fields ++ more) key = lookup more key := by
  unfold lookup at h ⊢
  rw [Option.map_eq_none_iff] at h
  rw [List.find?_append, h, Option.none_or]

end Value

end Json
