-- SUMMARY: What the sets of nftables have in them as maps from networks to timeouts, and the commands for one element.
import Ipgate.Lib.Nft

/-!
# Elements of sets

A set holds networks, each with the seconds it has left if it expires. The script
of a table fills its sets from nothing; `add element` and `delete element` change
one element and leave the others alone.
-/

namespace Nft

open Net

/-- The networks in each set, with their timeouts. -/
abbrev Members (ν : Type) := ν → IpNet → Option (Option Nat)

/-- A command for one element of a set. -/
inductive ElementCmd (ν : Type) where
  | add (table : String) (set : ν) (element : Elem)
  | delete (table : String) (set : ν) (target : IpNet)

def ElementCmd.text {ν : Type} [ToString ν] : ElementCmd ν → String
  | .add table set element => "add element " ++ table ++ " " ++ toString set ++ " \x7b " ++ element.text ++ " \x7d"
  | .delete table set target =>
    "delete element " ++ table ++ " " ++ toString set ++ " \x7b " ++ target.toString ++ " \x7d"

namespace Members

variable {ν : Type} [DecidableEq ν] {M : Members ν} {set : ν} {n : IpNet}

/-- Put a network into a set. A timeout it has there already is overwritten. -/
def put (M : Members ν) (set : ν) : Elem → Members ν
  | .net target timeout => fun s n => if s = set ∧ n = target then some timeout else M s n
  | .ports _ _ => M

def remove (M : Members ν) (set : ν) (target : IpNet) : Members ν :=
  fun s n => if s = set ∧ n = target then none else M s n

/-- Put elements into a set, one after the other. -/
def putAll (M : Members ν) (set : ν) (es : List Elem) : Members ν := es.foldl (fun M e => M.put set e) M

@[simp] theorem putAll_nil : M.putAll set [] = M := rfl

theorem putAll_cons (e : Elem) (es : List Elem) : M.putAll set (e :: es) = (M.put set e).putAll set es := rfl

/-- Intervals of ports are no networks. -/
theorem putAll_ports {α : Type} (f g : α → UInt16) (l : List α) :
    M.putAll set (l.map fun a => .ports (f a) (g a)) = M := by
  induction l with
  | nil => rfl
  | cons a l ih => exact ih

theorem putAll_other {es : List Elem} {s : ν} (h : s ≠ set) : M.putAll set es s n = M s n := by
  induction es generalizing M with
  | nil => rfl
  | cons e es ih =>
    rw [putAll_cons, ih]
    cases e with
    | net target timeout => exact if_neg fun hs => h hs.1
    | ports => rfl

/-- Of the elements for one network the last one counts. -/
theorem putAll_nets {α : Type} (f : α → IpNet) (g : α → Option Nat) (l : List α) :
    M.putAll set (l.map fun a => .net (f a) (g a)) set n =
      ((l.filter fun a => f a = n).getLast?.map g).or (M set n) := by
  induction l generalizing M with
  | nil => rfl
  | cons a l ih =>
    rw [List.map_cons, putAll_cons, ih, List.filter_cons]
    by_cases ha : f a = n
    · rw [if_pos (by simpa using ha), List.getLast?_cons]
      have hput : M.put set (.net (f a) (g a)) set n = some (g a) := if_pos ⟨rfl, ha.symm⟩
      rw [hput]
      cases (l.filter fun a => f a = n).getLast? <;> rfl
    · have hput : M.put set (.net (f a) (g a)) set n = M set n := if_neg fun hs => ha hs.2.symm
      rw [if_neg (by simpa using ha), hput]

end Members

section Exec

variable {ν : Type} [DecidableEq ν]

def ElementCmd.exec (M : Members ν) : ElementCmd ν → Members ν
  | .add _ set element => M.put set element
  | .delete _ set target => M.remove set target

/-- What the sets have in them after the script of the table. -/
def Table.members (t : Table ν) : Members ν :=
  t.sets.foldl (fun M s => M.putAll s.name s.elements) fun _ _ => none

end Exec

end Nft
