-- SUMMARY: Byte lists: numbers in big-endian order, and a list cut into chunks.
import Mathlib.Algebra.Ring.Nat
import Mathlib.Data.List.Induction

/-!
# Bytes

Numbers as big-endian bytes, and `slice::chunks`.
-/

namespace Bytes

/-! ## Big-endian numbers -/

/-- The lowest `k` bytes of a number, the highest of them first. -/
def toBe : Nat → Nat → List UInt8
  | 0, _ => []
  | k + 1, n => toBe k (n / 256) ++ [UInt8.ofNat n]

/-- The number that the bytes stand for. -/
def fromBe (bs : List UInt8) : Nat := bs.foldl (fun n b => n * 256 + b.toNat) 0

@[simp] theorem length_toBe (k n : Nat) : (toBe k n).length = k := by
  induction k generalizing n with
  | zero => rfl
  | succ k ih => simp [toBe, ih]

theorem fromBe_concat (bs : List UInt8) (b : UInt8) :
    fromBe (bs ++ [b]) = fromBe bs * 256 + b.toNat := by
  simp [fromBe]

/-- Only the lowest `k` bytes are kept. -/
theorem fromBe_toBe (k n : Nat) : fromBe (toBe k n) = n % 256 ^ k := by
  induction k generalizing n with
  | zero => simp [toBe, fromBe, Nat.mod_one]
  | succ k ih =>
    have hbyte : (UInt8.ofNat n).toNat = n % 256 := UInt8.toNat_ofNat'
    rw [toBe, fromBe_concat, ih, hbyte, Nat.pow_succ, Nat.mul_comm (256 ^ k) 256,
      Nat.mod_mul]
    omega

/-- Bytes are those of the number they stand for. -/
theorem toBe_fromBe (bs : List UInt8) : toBe bs.length (fromBe bs) = bs := by
  induction bs using List.reverseRecOn with
  | nil => rfl
  | append_singleton bs b ih =>
    have hb := b.toNat_lt
    have hhigh : (fromBe bs * 256 + b.toNat) / 256 = fromBe bs := by omega
    have hlow : UInt8.ofNat (fromBe bs * 256 + b.toNat) = b := by
      apply UInt8.toNat_inj.mp
      rw [UInt8.toNat_ofNat']
      omega
    rw [List.length_append, List.length_singleton, fromBe_concat, toBe, hhigh, hlow, ih]

theorem fromBe_lt_pow (bs : List UInt8) : fromBe bs < 256 ^ bs.length := by
  have hself := congrArg fromBe (toBe_fromBe bs)
  rw [fromBe_toBe] at hself
  rw [← hself]
  exact Nat.mod_lt _ (Nat.pow_pos (by decide))

/-! ## The order of a machine -/

inductive Endian where
  | little
  | big
  deriving DecidableEq

/-- The lowest `k` bytes of a number, as a machine has them in memory. -/
def toNe (e : Endian) (k n : Nat) : List UInt8 :=
  match e with
  | .little => (toBe k n).reverse
  | .big => toBe k n

/-- The number that a machine reads from bytes in memory. -/
def fromNe (e : Endian) (bs : List UInt8) : Nat :=
  match e with
  | .little => fromBe bs.reverse
  | .big => fromBe bs

theorem toNe_fromNe (e : Endian) (bs : List UInt8) : toNe e bs.length (fromNe e bs) = bs := by
  cases e with
  | little =>
    have hself := toBe_fromBe bs.reverse
    rw [List.length_reverse] at hself
    unfold toNe fromNe
    dsimp only
    rw [hself, List.reverse_reverse]
  | big => exact toBe_fromBe bs

theorem fromNe_lt_pow (e : Endian) (bs : List UInt8) : fromNe e bs < 256 ^ bs.length := by
  cases e with
  | little =>
    have hlt := fromBe_lt_pow bs.reverse
    rw [List.length_reverse] at hlt
    exact hlt
  | big => exact fromBe_lt_pow bs

/-! ## Chunks -/

section Chunks

variable {α : Type*} {n : Nat} {xs : List α}

/-- The list cut into pieces of length `n`; the last one may be shorter. -/
def chunks (n : Nat) (xs : List α) : List (List α) :=
  if xs = [] ∨ n = 0 then [] else xs.take n :: chunks n (xs.drop n)
termination_by xs.length
decreasing_by
  have hpos : 0 < xs.length := List.length_pos_iff.mpr (by simp_all)
  rw [List.length_drop]
  omega

theorem flatten_chunks (hn : 0 < n) : (chunks n xs).flatten = xs := by
  fun_induction chunks n xs with
  | case1 xs h =>
    cases h with
    | inl hnil => exact hnil.symm
    | inr hzero => omega
  | case2 xs h ih => rw [List.flatten_cons, ih, List.take_append_drop]

theorem length_of_mem_chunks {c : List α} (h : c ∈ chunks n xs) :
    0 < c.length ∧ c.length ≤ n := by
  fun_induction chunks n xs with
  | case1 => cases h
  | case2 xs hne ih =>
    cases List.mem_cons.mp h with
    | inl hhead =>
      have hpos : 0 < xs.length := List.length_pos_iff.mpr fun hnil => hne (.inl hnil)
      have hn : n ≠ 0 := fun hzero => hne (.inr hzero)
      rw [hhead, List.length_take]
      omega
    | inr htail => exact ih htail

/-- The pieces of length `k` are a list again. -/
theorem flatten_pieces (k n : Nat) (xs : List α) :
    ((List.range n).map fun i => (xs.drop (i * k)).take k).flatten = xs.take (n * k) := by
  induction n with
  | zero => simp
  | succ n ih =>
    rw [List.range_succ, List.map_append, List.flatten_append, ih, List.map_singleton, List.flatten_singleton,
      Nat.succ_mul, List.take_add]

end Chunks

end Bytes
