-- SUMMARY: Numbers as digits in a radix: printing, with zeros in front, and the reading of the Rust standard library.
import Mathlib.Algebra.Ring.Nat
import Mathlib.Data.List.Basic

/-!
# Digits

`char::to_digit` and `from_str_radix` for unsigned integers, against the printing of a number with
at least so many digits.
-/

namespace Radix

variable {radix bound k m n : ℕ} {c : Char} {cs cs' : List Char}

/-- The value of a digit in either case. -/
def toDigit (radix : ℕ) (c : Char) : Option ℕ :=
  let d :=
    if c.isDigit then c.toNat - '0'.toNat
    else if 'a' ≤ c ∧ c ≤ 'z' then c.toNat - 'a'.toNat + 10
    else if 'A' ≤ c ∧ c ≤ 'Z' then c.toNat - 'A'.toNat + 10
    else radix
  if d < radix then some d else none

/-- The number that begins with the digits of `n` and goes on with those that follow. -/
def valueFrom (radix n : ℕ) : List Char → Option ℕ
  | [] => some n
  | c :: cs =>
    match toDigit radix c with
    | some d => valueFrom radix (n * radix + d) cs
    | none => none

/-- A number below the bound, perhaps with a plus sign. -/
def fromStrRadix (radix bound : ℕ) (cs : List Char) : Option ℕ :=
  let digits := if cs.head? = some '+' then cs.tail else cs
  if digits = [] then none
  else
    match valueFrom radix 0 digits with
    | some n => if n < bound then some n else none
    | none => none

/-- The digits of a number, with capital letters. -/
def digits (radix n : ℕ) : List Char := (Nat.toDigits radix n).map Char.toUpper

/-- The digits, with zeros in front where there are fewer than `k`. -/
def padded (radix k n : ℕ) : List Char := (digits radix n).leftpad k '0'

/-! ## Reading what is printed -/

theorem toDigit_digitChar : ∀ radix ≤ 16, ∀ d < radix, toDigit radix (Nat.digitChar d).toUpper = some d := by decide

theorem valueFrom_append :
    valueFrom radix n (cs ++ cs') = (valueFrom radix n cs).bind fun m => valueFrom radix m cs' := by
  induction cs generalizing n with
  | nil => rfl
  | cons c cs ih =>
    rw [List.cons_append, valueFrom, valueFrom]
    cases toDigit radix c with
    | none => rfl
    | some d => exact ih

theorem valueFrom_singleton {d : ℕ} (h : toDigit radix c = some d) :
    valueFrom radix n [c] = some (n * radix + d) := by
  rw [valueFrom, h]
  rfl

theorem valueFrom_digits (hlo : 2 ≤ radix) (hhi : radix ≤ 16) (n : ℕ) : valueFrom radix 0 (digits radix n) = some n := by
  have hdigit (d : ℕ) (hd : d < radix) : toDigit radix (Nat.digitChar d).toUpper = some d :=
    toDigit_digitChar radix hhi d hd
  induction n using Nat.strongRecOn with
  | ind n ih =>
    unfold digits
    rw [Nat.toDigits_eq_if (by omega)]
    split
    · next hlt =>
      rw [List.map_singleton, valueFrom_singleton (hdigit n hlt), Nat.zero_mul, Nat.zero_add]
    · next hge =>
      have hrec := ih (n / radix) (Nat.div_lt_self (by omega) hlo)
      unfold digits at hrec
      rw [List.map_append, List.map_singleton, valueFrom_append, hrec, Option.bind_some,
        valueFrom_singleton (hdigit _ (Nat.mod_lt n (by omega))), Nat.mul_comm, Nat.div_add_mod]

theorem mem_toDigits (hlo : 2 ≤ radix) (h : c ∈ Nat.toDigits radix n) : ∃ d < radix, c = Nat.digitChar d := by
  induction n using Nat.strongRecOn with
  | ind n ih =>
    rw [Nat.toDigits_eq_if (by omega)] at h
    split at h
    · next hlt => exact ⟨n, hlt, List.mem_singleton.mp h⟩
    · rw [List.mem_append, List.mem_singleton] at h
      cases h with
      | inl hhead => exact ih (n / radix) (Nat.div_lt_self (by omega) hlo) hhead
      | inr hlast => exact ⟨n % radix, Nat.mod_lt n (by omega), hlast⟩

theorem mem_padded (hlo : 2 ≤ radix) (hhi : radix ≤ 16) (h : c ∈ padded radix k n) :
    ∃ d < 16, c = (Nat.digitChar d).toUpper := by
  unfold padded List.leftpad at h
  cases List.mem_append.mp h with
  | inl hzero => exact ⟨0, by decide, List.eq_of_mem_replicate hzero⟩
  | inr hdigit =>
    obtain ⟨e, he, rfl⟩ := List.mem_map.mp hdigit
    obtain ⟨d, hd, rfl⟩ := mem_toDigits hlo he
    exact ⟨d, by omega, rfl⟩

/-- Zeros in front do not count. -/
theorem valueFrom_padded (hlo : 2 ≤ radix) (hhi : radix ≤ 16) (k n : ℕ) :
    valueFrom radix 0 (padded radix k n) = some n := by
  have hzeros (j : ℕ) : valueFrom radix 0 (List.replicate j '0') = some 0 := by
    induction j with
    | zero => rfl
    | succ j ih =>
      have hzero : toDigit radix '0' = some 0 := toDigit_digitChar radix hhi 0 (by omega)
      rw [List.replicate_succ, valueFrom, hzero]
      dsimp only
      rw [Nat.zero_mul]
      exact ih
  unfold padded List.leftpad
  rw [valueFrom_append, hzeros, Option.bind_some, valueFrom_digits hlo hhi]

theorem padded_ne_nil : padded radix k n ≠ [] := by
  unfold padded List.leftpad digits
  simp [Nat.toDigits_ne_nil]

theorem fromStrRadix_padded (hlo : 2 ≤ radix) (hhi : radix ≤ 16) (hn : n < bound) :
    fromStrRadix radix bound (padded radix k n) = some n := by
  have hne : padded radix k n ≠ [] := padded_ne_nil
  have hplus : ¬(padded radix k n).head? = some '+' := by
    intro hhead
    obtain ⟨d, hd, heq⟩ := mem_padded hlo hhi (List.mem_of_mem_head? hhead)
    have hdigit : ∀ d < 16, '+' ≠ (Nat.digitChar d).toUpper := by decide
    exact hdigit d hd heq
  unfold fromStrRadix
  dsimp only
  rw [if_neg hplus, if_neg hne, valueFrom_padded hlo hhi]
  exact if_pos hn

theorem length_padded (hlo : 2 ≤ radix) (hk : 0 < k) (hn : n < radix ^ k) : (padded radix k n).length = k := by
  have hlen : (digits radix n).length ≤ k := by
    unfold digits
    rw [List.length_map]
    exact (Nat.length_toDigits_le_iff (by omega) hk).mpr hn
  unfold padded
  rw [List.length_leftpad]
  omega

/-- Decimal digits have no case. -/
theorem digits_ten (n : ℕ) : digits 10 n = Nat.toDigits 10 n := by
  have hdigit : ∀ d < 10, (Nat.digitChar d).toUpper = Nat.digitChar d := by decide
  unfold digits
  conv_rhs => rw [← List.map_id (Nat.toDigits 10 n)]
  refine List.map_congr_left fun c hc => ?_
  obtain ⟨d, hd, rfl⟩ := mem_toDigits (by decide) hc
  exact hdigit d hd

theorem fromStrRadix_decimal (hn : n < bound) : fromStrRadix 10 bound (Nat.toDigits 10 n) = some n := by
  have hpadded := fromStrRadix_padded (k := 0) (by decide : 2 ≤ 10) (by decide) hn
  have hnone : padded 10 0 n = digits 10 n := by
    unfold padded List.leftpad
    rw [Nat.zero_sub]
    rfl
  rw [hnone, digits_ten] at hpadded
  exact hpadded

end Radix
