-- SUMMARY: Base64, with the alphabet for URLs and no padding and in the standard form, and that decoding undoes encoding.
import Mathlib.Data.List.DropRight

/-!
# Base64

Three bytes are four digits of six bits. One or two bytes at the end are two or three
digits, whose last one has bits to spare; only zero bits are accepted there.
-/

namespace Base64

/-- The digits, in their order. -/
def alphabet : List Char := "ABCDEFGHIJKLMNOPQRSTUVWXYZabcdefghijklmnopqrstuvwxyz0123456789-_".toList

def digit (n : Nat) : Char := alphabet.getD n 'A'

def value (c : Char) : Option Nat := alphabet.findIdx? (· = c)

theorem value_digit : ∀ n < 64, value (digit n) = some n := by
  have halphabet : alphabet = _ := String.toList_ofList
  unfold value digit
  rw [halphabet]
  decide +kernel

def encode : List UInt8 → List Char
  | a :: b :: c :: rest =>
    digit (a.toNat / 4) :: digit (a.toNat % 4 * 16 + b.toNat / 16) :: digit (b.toNat % 16 * 4 + c.toNat / 64) ::
      digit (c.toNat % 64) :: encode rest
  | [a, b] => [digit (a.toNat / 4), digit (a.toNat % 4 * 16 + b.toNat / 16), digit (b.toNat % 16 * 4)]
  | [a] => [digit (a.toNat / 4), digit (a.toNat % 4 * 16)]
  | [] => []

def decode : List Char → Option (List UInt8)
  | w :: x :: y :: z :: rest => do
    let w ← value w
    let x ← value x
    let y ← value y
    let z ← value z
    let bytes ← decode rest
    return UInt8.ofNat (w * 4 + x / 16) :: UInt8.ofNat (x % 16 * 16 + y / 4) :: UInt8.ofNat (y % 4 * 64 + z) :: bytes
  | [w, x, y] => do
    let w ← value w
    let x ← value x
    let y ← value y
    if y % 4 = 0 then return [UInt8.ofNat (w * 4 + x / 16), UInt8.ofNat (x % 16 * 16 + y / 4)] else none
  | [w, x] => do
    let w ← value w
    let x ← value x
    if x % 16 = 0 then return [UInt8.ofNat (w * 4 + x / 16)] else none
  | [_] => none
  | [] => some []

theorem ofNat_eq {a : UInt8} {n : Nat} (h : n = a.toNat) : UInt8.ofNat n = a := by
  rw [h]
  exact UInt8.ofNat_toNat

theorem decode_encode (bytes : List UInt8) : decode (encode bytes) = some bytes := by
  induction bytes using encode.induct with
  | case1 a b c rest ih =>
    have ha := a.toNat_lt
    have hb := b.toNat_lt
    have hc := c.toNat_lt
    simp only [encode, decode, ih, value_digit (a.toNat / 4) (by omega),
      value_digit (a.toNat % 4 * 16 + b.toNat / 16) (by omega),
      value_digit (b.toNat % 16 * 4 + c.toNat / 64) (by omega), value_digit (c.toNat % 64) (by omega)]
    refine congrArg some ?_
    rw [ofNat_eq (a := a) (by omega), ofNat_eq (a := b) (by omega), ofNat_eq (a := c) (by omega)]
  | case2 a b =>
    have ha := a.toNat_lt
    have hb := b.toNat_lt
    have hspare : b.toNat % 16 * 4 % 4 = 0 := by omega
    simp only [encode, decode, value_digit (a.toNat / 4) (by omega),
      value_digit (a.toNat % 4 * 16 + b.toNat / 16) (by omega), value_digit (b.toNat % 16 * 4) (by omega),
      Option.bind_eq_bind, Option.bind_some, if_pos hspare]
    refine congrArg some ?_
    rw [ofNat_eq (a := a) (by omega), ofNat_eq (a := b) (by omega)]
  | case3 a =>
    have ha := a.toNat_lt
    have hspare : a.toNat % 4 * 16 % 16 = 0 := by omega
    simp only [encode, decode, value_digit (a.toNat / 4) (by omega), value_digit (a.toNat % 4 * 16) (by omega),
      Option.bind_eq_bind, Option.bind_some, if_pos hspare]
    refine congrArg some ?_
    rw [ofNat_eq (a := a) (by omega)]
  | case4 => rfl

/-! ## The standard form -/

/-- The standard digits, and the padding. -/
def standardAlphabet : List Char := "ABCDEFGHIJKLMNOPQRSTUVWXYZabcdefghijklmnopqrstuvwxyz0123456789+/=".toList

/-- A digit for URLs as a standard digit. -/
def standardDigit (c : Char) : Char := if c = '-' then '+' else if c = '_' then '/' else c

/-- A standard digit as a digit for URLs; the digits for URLs are none. -/
def urlDigit (c : Char) : Char :=
  if c = '+' then '-' else if c = '/' then '_' else if c = '-' ∨ c = '_' then '=' else c

/-- Filled up to a multiple of four characters. -/
def encodeStandard (bytes : List UInt8) : List Char :=
  (encode bytes).map standardDigit ++ List.replicate ((4 - (encode bytes).length % 4) % 4) '='

def unpad (cs : List Char) : List Char := (cs.reverse.dropWhile (· = '=')).reverse

def decodeStandard (cs : List Char) : Option (List UInt8) :=
  if cs.length % 4 = 0 ∧ cs.length ≤ (unpad cs).length + 2 then decode ((unpad cs).map urlDigit) else none

theorem digit_mem (n : ℕ) : digit n ∈ alphabet := by
  have hdefault : 'A' ∈ alphabet := by
    have halphabet : alphabet = _ := String.toList_ofList
    rw [halphabet]
    exact List.mem_cons_self ..
  unfold digit
  rw [List.getD_eq_getElem?_getD]
  cases h : alphabet[n]? with
  | none => exact hdefault
  | some c => exact List.mem_of_getElem? h

theorem mem_encode {c : Char} {bytes : List UInt8} (h : c ∈ encode bytes) : c ∈ alphabet := by
  induction bytes using encode.induct with
  | case1 a b d rest ih =>
    unfold encode at h
    simp only [List.mem_cons] at h
    obtain rfl | rfl | rfl | rfl | h := h
    · exact digit_mem _
    · exact digit_mem _
    · exact digit_mem _
    · exact digit_mem _
    · exact ih h
  | case2 a b =>
    unfold encode at h
    simp only [List.mem_cons, List.not_mem_nil, or_false] at h
    obtain rfl | rfl | rfl := h
    · exact digit_mem _
    · exact digit_mem _
    · exact digit_mem _
  | case3 a =>
    unfold encode at h
    simp only [List.mem_cons, List.not_mem_nil, or_false] at h
    obtain rfl | rfl := h
    · exact digit_mem _
    · exact digit_mem _
  | case4 => cases h

/-- One digit alone is never left over. -/
theorem length_encode_mod (bytes : List UInt8) : (encode bytes).length % 4 ≠ 1 := by
  induction bytes using encode.induct with
  | case1 a b c rest ih =>
    unfold encode
    simp only [List.length_cons]
    omega
  | case2 a b =>
    change 3 % 4 ≠ 1
    decide
  | case3 a =>
    change 2 % 4 ≠ 1
    decide
  | case4 => decide

theorem standardDigit_spec {c : Char} (h : c ∈ alphabet) : urlDigit (standardDigit c) = c ∧ standardDigit c ≠ '=' ∧
    standardDigit c ∈ standardAlphabet := by
  have hall : (alphabet.all fun c => decide (urlDigit (standardDigit c) = c ∧ standardDigit c ≠ '=' ∧
      standardDigit c ∈ standardAlphabet)) = true := by
    have halphabet : alphabet = _ := String.toList_ofList
    have hstandard : standardAlphabet = _ := String.toList_ofList
    rw [halphabet, hstandard]
    decide +kernel
  exact of_decide_eq_true (List.all_eq_true.mp hall c h)

theorem unpad_append {cs : List Char} {n : ℕ} (h : '=' ∉ cs) : unpad (cs ++ List.replicate n '=') = cs := by
  have hpad : ∀ c ∈ List.replicate n '=', decide (c = '=') = true :=
    fun c hc => decide_eq_true (List.eq_of_mem_replicate hc)
  have hself : cs.reverse.dropWhile (fun c => decide (c = '=')) = cs.reverse := by
    rw [List.dropWhile_eq_self_iff]
    intro hpos heq
    have hmem := List.mem_reverse.mp (List.getElem_mem hpos)
    rw [of_decide_eq_true heq] at hmem
    exact h hmem
  unfold unpad
  rw [List.reverse_append, List.reverse_replicate, List.dropWhile_append_of_pos hpad, hself, List.reverse_reverse]

theorem decodeStandard_encodeStandard (bytes : List UInt8) : decodeStandard (encodeStandard bytes) = some bytes := by
  have hmod := length_encode_mod bytes
  have hnone : '=' ∉ (encode bytes).map standardDigit := by
    intro h
    obtain ⟨c, hc, heq⟩ := List.mem_map.mp h
    exact (standardDigit_spec (mem_encode hc)).2.1 heq
  have hback : ((encode bytes).map standardDigit).map urlDigit = encode bytes := by
    rw [List.map_map]
    conv_rhs => rw [← List.map_id (encode bytes)]
    exact List.map_congr_left fun c hc => (standardDigit_spec (mem_encode hc)).1
  have hunpad : unpad (encodeStandard bytes) = (encode bytes).map standardDigit := unpad_append hnone
  have hlen : (encodeStandard bytes).length = (encode bytes).length + (4 - (encode bytes).length % 4) % 4 := by
    unfold encodeStandard
    rw [List.length_append, List.length_map, List.length_replicate]
  have hpadded : (encodeStandard bytes).length % 4 = 0 ∧
      (encodeStandard bytes).length ≤ (unpad (encodeStandard bytes)).length + 2 := by
    rw [hunpad, hlen, List.length_map]
    omega
  unfold decodeStandard
  rw [if_pos hpadded, hunpad, hback, decode_encode]

theorem mem_encodeStandard {c : Char} {bytes : List UInt8} (h : c ∈ encodeStandard bytes) : c ∈ standardAlphabet := by
  have hpadding : '=' ∈ standardAlphabet := by
    have hstandard : standardAlphabet = _ := String.toList_ofList
    rw [hstandard]
    decide
  unfold encodeStandard at h
  cases List.mem_append.mp h with
  | inl hdigit =>
    obtain ⟨d, hd, rfl⟩ := List.mem_map.mp hdigit
    exact (standardDigit_spec (mem_encode hd)).2.2
  | inr hpad =>
    rw [List.eq_of_mem_replicate hpad]
    exact hpadding

end Base64
