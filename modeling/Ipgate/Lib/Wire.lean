-- SUMMARY: Byte strings with their length in front, and that what is written so can be read in one way only.
import Ipgate.Lib.Bytes

/-!
# Strings with a length

A number is four bytes, the highest first. A string is its length as such a number and then its bytes.
-/

namespace Wire

open Bytes

/-- A string whose length four bytes can hold. -/
structure Str where
  bytes : List UInt8
  short : bytes.length < 4294967296

variable {a b : Str} {bs xs ys : List UInt8} {m n : ℕ}

theorem Str.bytes_inj (h : a.bytes = b.bytes) : a = b := by
  cases a
  cases b
  cases h
  rfl

def u32 (n : ℕ) : List UInt8 := toBe 4 n

def string (s : Str) : List UInt8 := u32 s.bytes.length ++ s.bytes

@[simp] theorem length_u32 (n : ℕ) : (u32 n).length = 4 := length_toBe 4 n

@[simp] theorem length_string (s : Str) : (string s).length = 4 + s.bytes.length := by
  unfold string
  rw [List.length_append, length_u32]

theorem fromBe_u32 (h : n < 4294967296) : fromBe (u32 n) = n := by
  unfold u32
  rw [fromBe_toBe]
  exact Nat.mod_eq_of_lt h

theorem fromBe_lt (h : bs.length = 4) : fromBe bs < 4294967296 := by
  have hlt := fromBe_lt_pow bs
  rw [h] at hlt
  exact hlt

/-- Four bytes are those of the number they stand for. -/
theorem u32_fromBe (h : bs.length = 4) : u32 (fromBe bs) = bs := by
  have hself := toBe_fromBe bs
  rw [h] at hself
  exact hself

theorem u32_append_inj (hm : m < 4294967296) (hn : n < 4294967296) (h : u32 m ++ xs = u32 n ++ ys) : m = n ∧ xs = ys := by
  obtain ⟨hnum, hrest⟩ := List.append_inj h (by rw [length_u32, length_u32])
  have hval := congrArg fromBe hnum
  rw [fromBe_u32 hm, fromBe_u32 hn] at hval
  exact ⟨hval, hrest⟩

theorem string_append_inj (h : string a ++ xs = string b ++ ys) : a = b ∧ xs = ys := by
  unfold string at h
  rw [List.append_assoc, List.append_assoc] at h
  obtain ⟨hlen, hrest⟩ := u32_append_inj a.short b.short h
  obtain ⟨hbytes, hrest⟩ := List.append_inj hrest hlen
  exact ⟨Str.bytes_inj hbytes, hrest⟩

end Wire
