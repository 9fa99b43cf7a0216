-- SUMMARY: Texts as their bytes in UTF-8: characters of ASCII among the bytes, and slices between byte offsets.
import Mathlib.Data.List.Basic

/-!
# UTF-8

A character of ASCII is one byte, which occurs in the encoding of no other character. A text is
cut at offsets that count its bytes, and not inside a character.
-/

namespace Utf8

variable {c d : Char} {cs cs' : List Char} {m n : ℕ}

/-- The bytes of a text. -/
def bytes (cs : List Char) : List UInt8 := cs.flatMap String.utf8EncodeChar

@[simp] theorem bytes_nil : bytes [] = [] := rfl

theorem bytes_cons : bytes (c :: cs) = String.utf8EncodeChar c ++ bytes cs := List.flatMap_cons

theorem bytes_append : bytes (cs ++ cs') = bytes cs ++ bytes cs' := List.flatMap_append

/-! ## ASCII -/

def byte (c : Char) : UInt8 := UInt8.ofNat c.toNat

theorem utf8EncodeChar_ascii (h : c.toNat < 128) : String.utf8EncodeChar c = [byte c] := if_pos (Nat.le_of_lt_succ h)

theorem le_toNat_ofNat {x y k : ℕ} (hk : 128 ≤ k) (hy : 0 < y) (hsum : y + k ≤ 256) :
    128 ≤ (UInt8.ofNat (x % y + k)).toNat := by
  have hlt := Nat.mod_lt x hy
  rw [UInt8.toNat_ofNat', Nat.mod_eq_of_lt (by omega)]
  omega

/-- The bytes of other characters are not those of ASCII. -/
theorem le_of_mem_utf8EncodeChar {b : UInt8} (h : 128 ≤ c.toNat) (hb : b ∈ String.utf8EncodeChar c) :
    128 ≤ b.toNat := by
  have hlong : ¬c.val.toNat ≤ 0x7f := Nat.not_le.mpr h
  -- Behind the first byte every byte has six bits; the first has what is left.
  have hsix (x : ℕ) : 128 ≤ (UInt8.ofNat (x % 0x40 + 0x80)).toNat := le_toNat_ofNat (by decide) (by decide) (by decide)
  revert b
  unfold String.utf8EncodeChar
  dsimp only
  rw [if_neg hlong]
  split
  · rw [List.forall_mem_cons, List.forall_mem_singleton]
    exact ⟨le_toNat_ofNat (by decide) (by decide) (by decide), hsix _⟩
  · split
    · rw [List.forall_mem_cons, List.forall_mem_cons, List.forall_mem_singleton]
      exact ⟨le_toNat_ofNat (by decide) (by decide) (by decide), hsix _, hsix _⟩
    · rw [List.forall_mem_cons, List.forall_mem_cons, List.forall_mem_cons, List.forall_mem_singleton]
      exact ⟨le_toNat_ofNat (by decide) (by decide) (by decide), hsix _, hsix _, hsix _⟩

theorem byte_mem_utf8EncodeChar (hd : d.toNat < 128) : byte d ∈ String.utf8EncodeChar c ↔ c = d := by
  have hbyte : (byte d).toNat = d.toNat := by
    unfold byte
    rw [UInt8.toNat_ofNat', Nat.mod_eq_of_lt (by omega)]
  by_cases hc : c.toNat < 128
  · rw [utf8EncodeChar_ascii hc, List.mem_singleton]
    constructor
    · intro heq
      have hnum := congrArg UInt8.toNat heq
      unfold byte at hnum
      rw [UInt8.toNat_ofNat', UInt8.toNat_ofNat', Nat.mod_eq_of_lt (by omega), Nat.mod_eq_of_lt (by omega)] at hnum
      rw [← Char.ofNat_toNat c, ← hnum, Char.ofNat_toNat]
    · rintro rfl
      rfl
  · constructor
    · intro hmem
      have hle := le_of_mem_utf8EncodeChar (Nat.not_lt.mp hc) hmem
      omega
    · rintro rfl
      exact (hc hd).elim

/-- A character of ASCII is in a text when its byte is among the bytes. -/
theorem byte_mem_bytes (hd : d.toNat < 128) : byte d ∈ bytes cs ↔ d ∈ cs := by
  unfold bytes
  rw [List.mem_flatMap]
  constructor
  · rintro ⟨c, hc, hmem⟩
    exact (byte_mem_utf8EncodeChar hd).mp hmem ▸ hc
  · intro hmem
    exact ⟨d, hmem, (byte_mem_utf8EncodeChar hd).mpr rfl⟩

/-! ## Offsets -/

/-- The number of bytes. -/
def length (cs : List Char) : ℕ := (bytes cs).length

/-- The text before and behind an offset, which is neither inside a character nor behind the end. -/
def splitAt (n : ℕ) : List Char → Option (List Char × List Char)
  | [] => if n = 0 then some ([], []) else none
  | c :: cs =>
    if n = 0 then some ([], c :: cs)
    else if c.utf8Size ≤ n then (splitAt (n - c.utf8Size) cs).map fun (a, b) => (c :: a, b)
    else none

/-- The text between two offsets. -/
def slice (lo hi : ℕ) (cs : List Char) : Option (List Char) :=
  if lo ≤ hi then do
    let (_, rest) ← splitAt lo cs
    let (mid, _) ← splitAt (hi - lo) rest
    return mid
  else none

/-- All characters are of ASCII. -/
def Ascii (cs : List Char) : Prop := ∀ c ∈ cs, c.toNat < 128

theorem utf8Size_of_ascii (h : c.toNat < 128) : c.utf8Size = 1 := by
  rw [← String.length_utf8EncodeChar, utf8EncodeChar_ascii h]
  rfl

theorem length_ascii (h : Ascii cs) : length cs = cs.length := by
  unfold length
  induction cs with
  | nil => rfl
  | cons c cs ih =>
    rw [bytes_cons, utf8EncodeChar_ascii (h c (List.mem_cons_self ..)), List.length_append,
      ih fun d hd => h d (List.mem_cons_of_mem c hd), List.length_singleton, List.length_cons, Nat.add_comm]

/-- In ASCII offsets count characters. -/
theorem splitAt_append (h : Ascii cs) (hn : n = cs.length) : splitAt n (cs ++ cs') = some (cs, cs') := by
  induction cs generalizing n with
  | nil =>
    subst hn
    cases cs' <;> rfl
  | cons c cs ih =>
    have hc := utf8Size_of_ascii (h c (List.mem_cons_self ..))
    have hrest := ih (fun d hd => h d (List.mem_cons_of_mem c hd)) rfl
    have hpos : n ≠ 0 := by simp [hn]
    have hless : n - 1 = cs.length := by simp [hn]
    rw [List.cons_append, splitAt, if_neg hpos, hc, if_pos (by omega), hless, hrest]
    rfl

theorem slice_append {a b : List Char} (ha : Ascii a) (hcs : Ascii cs) (hm : m = a.length) (hn : n = m + cs.length) :
    slice m n (a ++ (cs ++ b)) = some cs := by
  unfold slice
  rw [if_pos (by omega), splitAt_append ha hm]
  dsimp only [bind, Option.bind]
  rw [splitAt_append hcs (by omega)]
  rfl

theorem length_flatten {ts : List (List Char)} {k : ℕ} (h : ∀ t ∈ ts, t.length = k) :
    ts.flatten.length = ts.length * k := by
  induction ts with
  | nil => simp
  | cons t ts ih =>
    rw [List.flatten_cons, List.length_append, h t (List.mem_cons_self ..),
      ih fun u hu => h u (List.mem_cons_of_mem t hu), List.length_cons, Nat.succ_mul, Nat.add_comm]

theorem ascii_flatten {ts : List (List Char)} (h : ∀ t ∈ ts, Ascii t) : Ascii ts.flatten := by
  intro c hc
  obtain ⟨t, ht, hmem⟩ := List.mem_flatten.mp hc
  exact h t ht c hmem

/-- Pieces of one length are found by their index. -/
theorem slice_flatten {ts : List (List Char)} {t : List Char} {i k : ℕ} (hascii : ∀ t ∈ ts, Ascii t)
    (hlen : ∀ t ∈ ts, t.length = k) (ht : ts[i]? = some t) : slice (i * k) (i * k + k) ts.flatten = some t := by
  obtain ⟨hlt, rfl⟩ := List.getElem?_eq_some_iff.mp ht
  have hmem : ts[i] ∈ ts := List.getElem_mem hlt
  have hsplit : ts.flatten = (ts.take i).flatten ++ (ts[i] ++ (ts.drop (i + 1)).flatten) := by
    rw [← List.flatten_cons, ← List.flatten_append, List.getElem_cons_drop hlt, List.take_append_drop]
  have hfront : (ts.take i).flatten.length = i * k := by
    rw [length_flatten fun t ht => hlen t (List.mem_of_mem_take ht), List.length_take, Nat.min_eq_left (Nat.le_of_lt hlt)]
  rw [hsplit]
  exact slice_append (ascii_flatten fun t ht => hascii t (List.mem_of_mem_take ht)) (hascii _ hmem) hfront.symm
    (by rw [hlen _ hmem])

end Utf8
