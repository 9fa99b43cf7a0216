-- SUMMARY: String functions of the Rust standard library: trimming, splitting, lines, numbers, replacing, quoting, and hexadecimal bytes.
import Mathlib.Data.List.DropRight

/-!
# Text

`str::trim`, `str::lines`, `str::split_once`, `str::replace`, `u16::from_str` and the
debug form of a string, on lists of characters, and bytes in hexadecimal.
-/

namespace Text

/-- Characters with the Unicode property `White_Space`. -/
def isWhitespace (c : Char) : Bool :=
  (0x9 ≤ c.toNat && c.toNat ≤ 0xd) || (0x2000 ≤ c.toNat && c.toNat ≤ 0x200a) ||
    [0x20, 0x85, 0xa0, 0x1680, 0x2028, 0x2029, 0x202f, 0x205f, 0x3000].contains c.toNat

def trimChars (cs : List Char) : List Char :=
  ((cs.dropWhile isWhitespace).reverse.dropWhile isWhitespace).reverse

/-- The string without leading and trailing whitespace. -/
def trim (s : String) : String := String.ofList (trimChars s.toList)

/-- The text before and behind the first occurrence of a character. -/
def splitOnce (c : Char) : List Char → Option (List Char × List Char)
  | [] => none
  | d :: cs => if d = c then some ([], cs) else (splitOnce c cs).map fun (a, b) => (d :: a, b)

/-- The text before and behind the last occurrence of a character. -/
def rsplitOnce (c : Char) (cs : List Char) : Option (List Char × List Char) :=
  (splitOnce c cs.reverse).map fun (a, b) => (b.reverse, a.reverse)

/-- A decimal number below `2 ^ 16`, perhaps with a plus sign. -/
def parseU16 (cs : List Char) : Option UInt16 :=
  let digits := if cs.head? = some '+' then cs.tail else cs
  let n := digits.foldl (fun n c => n * 10 + (c.toNat - '0'.toNat)) 0
  if digits ≠ [] ∧ digits.all Char.isDigit ∧ n < 65536 then some (UInt16.ofNat n) else none

/-- The pieces of a text between whitespace, without empty ones. -/
def splitWhitespace (cs : List Char) : List (List Char) :=
  (cs.splitOnP isWhitespace).filter (· ≠ [])

/-- The text from the first occurrence of a word on. -/
def fromWord (word : List Char) : List Char → Option (List Char)
  | [] => if word = [] then some [] else none
  | c :: cs => if word.isPrefixOf (c :: cs) then some (c :: cs) else fromWord word cs

/-- The first occurrence is where the text before it ends. -/
theorem splitOnce_append {c : Char} {a b : List Char} (h : c ∉ a) : splitOnce c (a ++ c :: b) = some (a, b) := by
  induction a with
  | nil => simp [splitOnce]
  | cons d a ih =>
    obtain ⟨hd, ha⟩ : c ≠ d ∧ c ∉ a := by simpa using h
    simp [splitOnce, ih ha, Ne.symm hd]

theorem splitOnce_of_not_mem {c : Char} {cs : List Char} (h : c ∉ cs) : splitOnce c cs = none := by
  induction cs with
  | nil => rfl
  | cons d cs ih =>
    obtain ⟨hd, hcs⟩ : c ≠ d ∧ c ∉ cs := by simpa using h
    rw [splitOnce, if_neg (Ne.symm hd), ih hcs]
    rfl

theorem rsplitOnce_append {c : Char} {a b : List Char} (h : c ∉ b) : rsplitOnce c (a ++ c :: b) = some (a, b) := by
  unfold rsplitOnce
  rw [List.reverse_append, List.reverse_cons, List.append_assoc, List.singleton_append,
    splitOnce_append (by simpa using h)]
  simp

theorem rsplitOnce_of_not_mem {c : Char} {cs : List Char} (h : c ∉ cs) : rsplitOnce c cs = none := by
  unfold rsplitOnce
  rw [splitOnce_of_not_mem (by simpa using h)]
  rfl

/-- Texts are the same before and behind the first occurrence of a character. -/
theorem append_cons_inj {c : Char} {a a' b b' : List Char} (ha : c ∉ a) (ha' : c ∉ a')
    (h : a ++ c :: b = a' ++ c :: b') : a = a' ∧ b = b' := by
  have hsplit := congrArg (splitOnce c) h
  rw [splitOnce_append ha, splitOnce_append ha'] at hsplit
  exact Prod.mk.inj (Option.some.inj hsplit)

/-! ## Numbers -/

section Numbers

variable {c : Char} {cs : List Char} {n : Nat}

theorem value_toDigits : (Nat.toDigits 10 n).foldl (fun n c => n * 10 + (c.toNat - '0'.toNat)) 0 = n := by
  have hvalue := @Nat.ofDigitChars_ten_toDigits n
  rw [Nat.ofDigitChars_eq_foldl] at hvalue
  simpa only [Nat.mul_comm] using hvalue

theorem toList_port (p : UInt16) : (toString p).toList = Nat.toDigits 10 p.toNat := Nat.toList_repr

theorem isDigit_of_mem_port {p : UInt16} (h : c ∈ (toString p).toList) : c.isDigit := by
  rw [toList_port] at h
  exact Nat.isDigit_of_mem_toDigits (by decide) (by decide) h

/-- Visible characters of ASCII are not whitespace. -/
theorem not_isWhitespace_of_ascii (hlo : 33 ≤ c.toNat) (hhi : c.toNat < 127) : isWhitespace c = false := by
  have hlist : [0x20, 0x85, 0xa0, 0x1680, 0x2028, 0x2029, 0x202f, 0x205f, 0x3000].contains c.toNat = false := by
    simp
    omega
  unfold isWhitespace
  rw [hlist, Bool.or_false, Bool.or_eq_false_iff, Bool.and_eq_false_iff, Bool.and_eq_false_iff]
  simp only [decide_eq_false_iff_not]
  omega

theorem not_isWhitespace_of_isDigit (h : c.isDigit = true) : isWhitespace c = false := by
  have hrange : 48 ≤ c.toNat ∧ c.toNat ≤ 57 := by simpa [Char.isDigit, UInt32.le_iff_toNat_le] using h
  exact not_isWhitespace_of_ascii (by omega) (by omega)

theorem trimChars_of_plain (h : ∀ c ∈ cs, isWhitespace c = false) : trimChars cs = cs := by
  have hdrop (l : List Char) (hl : ∀ c ∈ l, isWhitespace c = false) : l.dropWhile isWhitespace = l := by
    rw [List.dropWhile_eq_self_iff]
    intro hpos
    rw [hl _ (List.getElem_mem hpos)]
    exact Bool.false_ne_true
  unfold trimChars
  rw [hdrop cs h, hdrop cs.reverse fun c hc => h c (List.mem_reverse.mp hc), List.reverse_reverse]

/-- A port is read as it is printed. -/
theorem parseU16_toString (p : UInt16) : parseU16 (toString p).toList = some p := by
  have hdigit : ∀ c ∈ Nat.toDigits 10 p.toNat, c.isDigit := fun c hc =>
    Nat.isDigit_of_mem_toDigits (by decide) (by decide) hc
  have hplus : (Nat.toDigits 10 p.toNat).head? ≠ some '+' := by
    intro hhead
    have hmem := List.mem_of_mem_head? hhead
    have hfalse := hdigit '+' hmem
    revert hfalse
    decide
  unfold parseU16
  rw [toList_port, if_neg hplus]
  dsimp only
  rw [value_toDigits, if_pos ⟨Nat.toDigits_ne_nil, List.all_eq_true.mpr hdigit, p.toNat_lt⟩, UInt16.ofNat_toNat]

end Numbers

/-! ## Words -/

section Words

variable {c : Char} {cs cs' t : List Char} {ts : List (List Char)} {word : List Char}

theorem splitWhitespace_append_cons (hc : isWhitespace c = true) :
    splitWhitespace (cs ++ c :: cs') = splitWhitespace cs ++ splitWhitespace cs' := by
  unfold splitWhitespace
  rw [List.splitOnP_append_cons cs cs' hc, List.filter_append]

theorem splitWhitespace_blank (h : ∀ c ∈ cs, isWhitespace c = true) : splitWhitespace cs = [] := by
  induction cs with
  | nil => rfl
  | cons c cs ih =>
    have hcons := @splitWhitespace_append_cons c [] cs (h c (List.mem_cons_self ..))
    rw [List.nil_append] at hcons
    rw [hcons, ih fun d hd => h d (List.mem_cons_of_mem c hd)]
    rfl

/-- Whitespace in front of a text and behind it is in none of its pieces. -/
theorem splitWhitespace_blank_append (h : ∀ c ∈ cs, isWhitespace c = true) :
    splitWhitespace (cs ++ cs') = splitWhitespace cs' := by
  induction cs with
  | nil => rfl
  | cons c cs ih =>
    have hcons := @splitWhitespace_append_cons c [] (cs ++ cs') (h c (List.mem_cons_self ..))
    rw [List.nil_append] at hcons
    rw [List.cons_append, hcons, ih fun d hd => h d (List.mem_cons_of_mem c hd)]
    rfl

theorem splitWhitespace_append_blank (h : ∀ c ∈ cs', isWhitespace c = true) :
    splitWhitespace (cs ++ cs') = splitWhitespace cs := by
  cases cs' with
  | nil => rw [List.append_nil]
  | cons c cs' =>
    rw [splitWhitespace_append_cons (h c (List.mem_cons_self ..)),
      splitWhitespace_blank fun d hd => h d (List.mem_cons_of_mem c hd), List.append_nil]

theorem splitWhitespace_trimChars (cs : List Char) : splitWhitespace (trimChars cs) = splitWhitespace cs := by
  have hfront : splitWhitespace (cs.dropWhile isWhitespace) = splitWhitespace cs := by
    conv_rhs => rw [← cs.takeWhile_append_dropWhile (p := isWhitespace)]
    exact (splitWhitespace_blank_append fun _ hc => List.mem_takeWhile_imp hc).symm
  have hback (l : List Char) : splitWhitespace (l.reverse.dropWhile isWhitespace).reverse = splitWhitespace l := by
    have hl : (l.reverse.dropWhile isWhitespace).reverse ++ (l.reverse.takeWhile isWhitespace).reverse = l := by
      rw [← List.reverse_append, List.takeWhile_append_dropWhile, List.reverse_reverse]
    conv_rhs => rw [← hl]
    exact (splitWhitespace_append_blank fun _ hc => List.mem_takeWhile_imp (List.mem_reverse.mp hc)).symm
  exact (hback _).trans hfront

/-- A word: a text with something in it, and no whitespace. -/
def Word (t : List Char) : Prop := t ≠ [] ∧ ∀ c ∈ t, isWhitespace c = false

theorem splitWhitespace_word (h : Word t) : splitWhitespace t = [t] := by
  unfold splitWhitespace
  rw [List.splitOnP_eq_singleton h.2, List.filter_singleton]
  simp [h.1]

/-- Words with a space between them are found again. -/
theorem splitWhitespace_intercalate (h : ∀ t ∈ ts, Word t) : splitWhitespace ([' '].intercalate ts) = ts := by
  induction ts with
  | nil => rfl
  | cons t ts ih =>
    have ht := splitWhitespace_word (h t (List.mem_cons_self ..))
    cases ts with
    | nil =>
      rw [List.intercalate_singleton]
      exact ht
    | cons t' ts =>
      rw [List.intercalate_cons_cons, List.append_assoc, List.singleton_append,
        splitWhitespace_append_cons (by decide), ht, ih fun t'' ht'' => h t'' (List.mem_cons_of_mem t ht'')]
      rfl

/-- Words with spaces in front of each, one at least. -/
def spaced (ts : List (ℕ × List Char)) : List Char := ts.flatMap fun (n, t) => ' ' :: (List.replicate n ' ' ++ t)

theorem mem_spaced {ps : List (ℕ × List Char)} (h : c ∈ spaced ps) : c = ' ' ∨ ∃ p ∈ ps, c ∈ p.2 := by
  obtain ⟨p, hp, hmem⟩ := List.mem_flatMap.mp h
  rw [List.mem_cons, List.mem_append] at hmem
  rcases hmem with hfirst | hmore | hword
  · exact .inl hfirst
  · exact .inl (List.eq_of_mem_replicate hmore)
  · exact .inr ⟨p, hp, hword⟩

theorem isWhitespace_of_mem_replicate {n : ℕ} (h : c ∈ List.replicate n ' ') : isWhitespace c = true := by
  rw [List.eq_of_mem_replicate h]
  decide

theorem splitWhitespace_spaced {ps : List (ℕ × List Char)} (h : ∀ p ∈ ps, Word p.2) :
    splitWhitespace (cs ++ spaced ps) = splitWhitespace cs ++ ps.map Prod.snd := by
  induction ps generalizing cs with
  | nil => simp [spaced]
  | cons p ps ih =>
    have hword := splitWhitespace_word (h p (List.mem_cons_self ..))
    have hrest := @ih p.2 fun q hq => h q (List.mem_cons_of_mem p hq)
    have hcons : spaced (p :: ps) = ' ' :: (List.replicate p.1 ' ' ++ (p.2 ++ spaced ps)) := by
      unfold spaced
      rw [List.flatMap_cons, List.cons_append, List.append_assoc]
    rw [hcons, splitWhitespace_append_cons (by decide),
      splitWhitespace_blank_append fun _ hc => isWhitespace_of_mem_replicate hc, hrest, hword]
    rfl

/-- A text that does not have a word does not begin it either, when its last character is in it only once. -/
theorem not_prefix_append {init : List Char} (hw : word = init ++ [c]) (hc : c ∉ init) (hcs : cs ≠ [])
    (h : ¬ word <:+: cs) : ¬ word <+: cs ++ (word ++ cs') := by
  rintro ⟨t, ht⟩
  obtain ⟨as, hcs', -⟩ | ⟨bs, hbs, hrest⟩ := List.append_eq_append_iff.mp ht
  · exact h ⟨[], as, by simp [hcs']⟩
  · cases bs using List.reverseRecOn with
    | nil => exact h ⟨[], [], by simp [hbs]⟩
    | append_singleton bs e =>
      -- the rest of the word is the beginning of a second one, and ends with the same character
      have hinit : init ++ [c] = cs ++ bs ++ [e] := by rw [← hw, hbs, List.append_assoc]
      obtain ⟨rfl, hce⟩ := List.append_inj' hinit rfl
      obtain rfl := List.singleton_inj.mp hce
      rw [hw] at hrest
      have hsame : cs ++ bs ++ c :: cs' = bs ++ c :: t := by simpa using hrest
      have hbs' : c ∉ bs := fun hmem => hc (List.mem_append_right cs hmem)
      have hlen := congrArg List.length (append_cons_inj hc hbs' hsame).1
      rw [List.length_append] at hlen
      exact hcs (List.length_eq_zero_iff.mp (by omega))

/-- A word is found behind a text that does not have it, if its last character is in it only once. -/
theorem fromWord_append {init : List Char} (hw : word = init ++ [c]) (hc : c ∉ init) (h : ¬ word <:+: cs) :
    fromWord word (cs ++ (word ++ cs')) = some (word ++ cs') := by
  induction cs with
  | nil =>
    have hpre : word.isPrefixOf (word ++ cs') = true := List.isPrefixOf_iff_prefix.mpr (List.prefix_append _ _)
    rw [List.nil_append]
    cases hlist : word ++ cs' with
    | nil => simp [hw] at hlist
    | cons d ds =>
      unfold fromWord
      rw [← hlist, if_pos hpre]
  | cons d cs ih =>
    have hpre : ¬ word.isPrefixOf (d :: cs ++ (word ++ cs')) = true := by
      rw [List.isPrefixOf_iff_prefix]
      exact not_prefix_append hw hc (List.cons_ne_nil d cs) h
    rw [List.cons_append] at hpre ⊢
    unfold fromWord
    rw [if_neg hpre]
    exact ih fun hin => h (hin.trans (List.suffix_cons d cs).isInfix)

theorem fromWord_of_not_infix (h : ¬ word <:+: cs) : fromWord word cs = none := by
  induction cs with
  | nil =>
    unfold fromWord
    rw [if_neg]
    rintro rfl
    exact h (List.nil_infix)
  | cons c cs ih =>
    have hpre : ¬ word.isPrefixOf (c :: cs) = true := by
      rw [List.isPrefixOf_iff_prefix]
      exact fun hp => h hp.isInfix
    unfold fromWord
    rw [if_neg hpre]
    exact ih fun hin => h (hin.trans (List.suffix_cons c cs).isInfix)

end Words

/-! ## Lines -/

/-- A line without the carriage return at its end. -/
def stripCr (l : List Char) : List Char := if l.getLast? = some '\r' then l.dropLast else l

/-- The lines of a text, without the line feeds and the carriage returns before them. What
follows the last line feed is a line unless it is empty. -/
def lines (cs : List Char) : List (List Char) :=
  let pieces := cs.splitOn '\n'
  let last := pieces.getLastD []
  pieces.dropLast.map stripCr ++ if last = [] then [] else [last]

/-- The lines with a line feed behind each; no text for no lines, and for one that is empty. -/
def unlines (ls : List (List Char)) : List Char :=
  let joined := ['\n'].intercalate ls
  if joined = [] then [] else joined ++ ['\n']

/-- A line is trimmed of its carriage return like of any other whitespace. -/
theorem trimChars_stripCr (l : List Char) : trimChars (stripCr l) = trimChars l := by
  unfold stripCr
  split
  · next hlast =>
    obtain ⟨l', rfl⟩ := List.getLast?_eq_some_iff.mp hlast
    have hcr : isWhitespace '\r' = true := by decide
    rw [List.dropLast_concat, trimChars, trimChars, List.dropWhile_append]
    split
    · next hall =>
      rw [List.isEmpty_iff.mp hall]
      simp [hcr]
    · simp [hcr]
  · rfl

/-- A text that is trimmed has nothing to trim. -/
theorem trimChars_trimChars (cs : List Char) : trimChars (trimChars cs) = trimChars cs := by
  have hhead : (trimChars cs).dropWhile isWhitespace = trimChars cs := by
    rw [List.dropWhile_eq_self_iff]
    intro hpos
    have hpre : trimChars cs <+: cs.dropWhile isWhitespace := List.rdropWhile_prefix ..
    have hlen : 0 < (cs.dropWhile isWhitespace).length := Nat.lt_of_lt_of_le hpos hpre.length_le
    have hidem : (cs.dropWhile isWhitespace).dropWhile isWhitespace = _ :=
      List.dropWhile_idempotent ..
    have hfirst := List.dropWhile_eq_self_iff.mp hidem hlen
    rwa [hpre.getElem hpos]
  have hlast : (trimChars cs).rdropWhile isWhitespace = trimChars cs :=
    List.rdropWhile_idempotent ..
  calc trimChars (trimChars cs)
    _ = ((trimChars cs).dropWhile isWhitespace).rdropWhile isWhitespace := rfl
    _ = trimChars cs := by rw [hhead, hlast]

theorem not_mem_of_mem_splitOn {α : Type} [BEq α] [LawfulBEq α] {c : α} {cs l : List α} (h : l ∈ cs.splitOn c) : c ∉ l := by
  induction cs generalizing l with
  | nil =>
    rw [List.splitOn_nil, List.mem_singleton] at h
    simp [h]
  | cons d cs ih =>
    rw [List.splitOn_cons_eq_if_modifyHead] at h
    split at h
    · cases List.mem_cons.mp h with
      | inl hnil => simp [hnil]
      | inr htail => exact ih htail
    · next hne =>
      cases hpieces : cs.splitOn c with
      | nil => exact (List.splitOn_ne_nil c cs hpieces).elim
      | cons p ps =>
        rw [hpieces, List.modifyHead_cons, List.mem_cons] at h
        rw [hpieces] at ih
        cases h with
        | inl hhead =>
          have hp := ih (List.mem_cons_self ..)
          subst hhead
          have hd : c ≠ d := by
            rintro rfl
            simp at hne
          simp [hp, hd]
        | inr htail => exact ih (List.mem_cons_of_mem p htail)

theorem getLastD_splitOn_mem {α : Type} [BEq α] (c : α) (cs : List α) : (cs.splitOn c).getLastD [] ∈ cs.splitOn c := by
  cases hpieces : cs.splitOn c with
  | nil => exact (List.splitOn_ne_nil c cs hpieces).elim
  | cons p ps =>
    rw [List.getLastD_cons]
    exact List.getLastD_mem_cons

theorem splitOn_of_not_mem {α : Type} [BEq α] [LawfulBEq α] {c : α} {cs : List α} (h : c ∉ cs) : cs.splitOn c = [cs] := by
  have hpieces : ∀ l ∈ [cs], c ∉ l := by simpa using h
  have hjoin := List.splitOn_intercalate c hpieces (by simp)
  simpa using hjoin

/-- Pieces that each end with the separator are found again, with nothing behind the last. -/
theorem splitOn_ended {α : Type} [BEq α] [LawfulBEq α] {c : α} {ls : List (List α)} (h : ∀ l ∈ ls, c ∉ l) :
    (ls.flatMap (· ++ [c])).splitOn c = ls ++ [[]] := by
  induction ls with
  | nil => rfl
  | cons l ls ih =>
    rw [List.flatMap_cons, List.append_assoc, List.singleton_append, List.splitOn_append_cons_self,
      splitOn_of_not_mem (h l (List.mem_cons_self ..)),
      ih fun l' hl' => h l' (List.mem_cons_of_mem l hl')]
    rfl

/-- The lines of a text that end with a line feed each, without the line feeds. -/
def endedLines (cs : List Char) : List (List Char) := (cs.splitOn '\n').dropLast

theorem endedLines_flatMap {ls : List (List Char)} (h : ∀ l ∈ ls, '\n' ∉ l) :
    endedLines (ls.flatMap (· ++ ['\n'])) = ls := by
  unfold endedLines
  rw [splitOn_ended h, List.dropLast_concat]

/-- Lines without a carriage return at their end, with a line feed behind each, are read as they are. -/
theorem lines_flatMap {ls : List (List Char)} (h : ∀ l ∈ ls, '\n' ∉ l) (hcr : ∀ l ∈ ls, l.getLast? ≠ some '\r') :
    lines (ls.flatMap (· ++ ['\n'])) = ls := by
  have hself : ls.map stripCr = ls := by
    conv_rhs => rw [← List.map_id ls]
    exact List.map_congr_left fun l hl => if_neg (hcr l hl)
  unfold lines
  rw [splitOn_ended h]
  simp [hself]

/-- The first line is what is in front of the first line feed. -/
theorem lines_append_cons {l cs : List Char} (h : '\n' ∉ l) : lines (l ++ '\n' :: cs) = stripCr l :: lines cs := by
  have hpieces : (l ++ '\n' :: cs).splitOn '\n' = l :: cs.splitOn '\n' := by
    rw [List.splitOn_append_cons_self, splitOn_of_not_mem h, List.singleton_append]
  unfold lines
  rw [hpieces]
  cases hrest : cs.splitOn '\n' with
  | nil => exact (List.splitOn_ne_nil '\n' cs hrest).elim
  | cons p ps => rfl

theorem not_mem_lines {cs l : List Char} (h : l ∈ lines cs) : '\n' ∉ l := by
  have hstrip (p : List Char) (hp : '\n' ∉ p) : '\n' ∉ stripCr p := by
    unfold stripCr
    split
    · exact fun hmem => hp (List.dropLast_subset p hmem)
    · exact hp
  unfold lines at h
  dsimp only at h
  cases List.mem_append.mp h with
  | inl hmap =>
    obtain ⟨p, hp, rfl⟩ := List.mem_map.mp hmap
    exact hstrip p (not_mem_of_mem_splitOn (List.dropLast_subset _ hp))
  | inr hlast =>
    split at hlast
    · cases hlast
    · rw [List.mem_singleton.mp hlast]
      exact not_mem_of_mem_splitOn (getLastD_splitOn_mem '\n' cs)

/-- Lines that are written and read again give the same to whoever ignores empty lines and
carriage returns. -/
theorem filterMap_lines_unlines {α : Type} {f : List Char → Option α} {ls : List (List Char)}
    (hcr : ∀ l, f (stripCr l) = f l) (hnil : f [] = none) (hls : ∀ l ∈ ls, '\n' ∉ l) :
    (lines (unlines ls)).filterMap f = ls.filterMap f := by
  unfold unlines
  dsimp only
  split
  · next hjoin =>
    have hempty : ls.filterMap f = [] := by
      cases ls with
      | nil => rfl
      | cons l rest =>
        cases rest with
        | nil =>
          obtain rfl : l = [] := by simpa using hjoin
          simp [hnil]
        | cons l' rest => simp [List.intercalate] at hjoin
    rw [hempty]
    simp [lines]
  · next hjoin =>
    have hne : ls ≠ [] := by
      rintro rfl
      exact hjoin rfl
    have hpieces : (['\n'].intercalate ls ++ ['\n']).splitOn '\n' = ls ++ [[]] := by
      rw [List.splitOn_append_cons_self, List.splitOn_intercalate '\n' hls hne, List.splitOn_nil]
    unfold lines
    rw [hpieces]
    simp [List.filterMap_map, hcr]

/-! ## Replacing and quoting -/

/-- Replace every occurrence of a text that is not empty, from the left; `skip`
characters still belong to the occurrence found last. -/
def replaceFrom (old new : List Char) : Nat → List Char → List Char
  | _, [] => []
  | skip + 1, _ :: cs => replaceFrom old new skip cs
  | 0, c :: cs =>
    if old.isPrefixOf (c :: cs) then new ++ replaceFrom old new (old.length - 1) cs
    else c :: replaceFrom old new 0 cs

def replaceAll (s old new : String) : String :=
  String.ofList (replaceFrom old.toList new.toList 0 s.toList)

/-- `p` stands somewhere in `s`. -/
def Occurs (p s : String) : Prop := p.toList <:+: s.toList

instance (p s : String) : Decidable (Occurs p s) := inferInstanceAs (Decidable (_ <:+: _))

section Replace

variable {old new p cs : List Char} {a b : Char}

theorem replaceFrom_skip (n : Nat) : replaceFrom old new n cs = replaceFrom old new 0 (cs.drop n) := by
  induction cs generalizing n with
  | nil => cases n <;> simp [replaceFrom]
  | cons c cs ih =>
    cases n with
    | zero => rfl
    | succ n =>
      rw [replaceFrom, ih, List.drop_succ_cons]

/-- A text without the first character of what is put in, in front of the replaced text, was
in front of the text before. -/
theorem prefix_of_prefix_replaceFrom (ha : a ∉ p) (h : p <+: replaceFrom old (a :: new) 0 cs) : p <+: cs := by
  induction p generalizing cs with
  | nil => exact List.nil_prefix
  | cons c p ih =>
    obtain ⟨hne, hp⟩ : a ≠ c ∧ a ∉ p := by simpa using ha
    cases cs with
    | nil =>
      unfold replaceFrom at h
      exact h
    | cons d cs =>
      unfold replaceFrom at h
      split at h
      · exact (hne (List.cons_prefix_cons.mp h).1.symm).elim
      · obtain ⟨rfl, hrest⟩ := List.cons_prefix_cons.mp h
        exact List.cons_prefix_cons.mpr ⟨rfl, ih hp hrest⟩

/-- A text without the character `b` stands on one side of it. -/
theorem infix_of_infix_append_cons {xs ys : List Char} (hb : b ∉ p) (h : p <:+: xs ++ b :: ys) :
    p <:+: xs ∨ p <:+: ys := by
  obtain ⟨s, t, hst⟩ := h
  rw [List.append_assoc] at hst
  -- where the occurrence begins: before the `b`, or after it
  cases List.append_eq_append_iff.mp hst with
  | inl hleft =>
    obtain ⟨as, hxs, hpt⟩ := hleft
    cases List.append_eq_append_iff.mp hpt with
    | inl hin =>
      obtain ⟨bs, has, -⟩ := hin
      exact .inl ⟨s, bs, by rw [hxs, has, List.append_assoc]⟩
    | inr hover =>
      obtain ⟨bs, hp, hbs⟩ := hover
      cases bs with
      | nil =>
        rw [List.append_nil] at hp
        exact .inl ⟨s, [], by rw [hxs, hp, List.append_nil]⟩
      | cons c bs =>
        obtain ⟨rfl, -⟩ := List.cons.inj hbs
        exact (hb (by simp [hp])).elim
  | inr hright =>
    obtain ⟨bs, hs, hys⟩ := hright
    cases bs with
    | nil =>
      cases p with
      | nil => exact .inr List.nil_infix
      | cons c p =>
        obtain ⟨rfl, -⟩ := List.cons.inj hys
        exact (hb (List.mem_cons_self ..)).elim
    | cons c bs =>
      obtain ⟨rfl, hrest⟩ := List.cons.inj hys
      exact .inr ⟨bs, t, by rw [hrest, List.append_assoc, List.append_eq]⟩

/-- Nothing of the replaced text is left, and none comes about: what is put in does not have
it, and begins and ends with characters that it does not have. -/
theorem not_infix_replaceFrom (ha : a ∉ old) (hb : b ∉ old) (hnew : ¬old <:+: a :: new) :
    ¬old <:+: replaceFrom old (a :: new ++ [b]) 0 cs := by
  induction hlen : cs.length using Nat.strong_induction_on generalizing cs with
  | h n ih =>
    cases cs with
    | nil =>
      intro h
      unfold replaceFrom at h
      exact hnew (List.infix_nil.mp h ▸ List.nil_infix)
    | cons c cs =>
      rw [List.length_cons] at hlen
      unfold replaceFrom
      -- replaced here: the occurrence lies in what is put in or in the rest
      split
      · intro h
        rw [replaceFrom_skip, List.append_assoc, List.singleton_append] at h
        cases infix_of_infix_append_cons hb h with
        | inl hin => exact hnew hin
        | inr hrest =>
          have hlt : (cs.drop (old.length - 1)).length < n := by
            rw [List.length_drop]
            omega
          exact ih _ hlt rfl hrest
      -- not replaced here: an occurrence that begins with `c` was one in the text
      · next hpre =>
        intro h
        cases List.infix_cons_iff.mp h with
        | inl hhead =>
          apply hpre
          rw [List.isPrefixOf_iff_prefix]
          cases old with
          | nil => exact List.nil_prefix
          | cons d old =>
            obtain ⟨rfl, htail⟩ := List.cons_prefix_cons.mp hhead
            refine List.cons_prefix_cons.mpr ⟨rfl, ?_⟩
            rw [List.cons_append] at htail
            exact prefix_of_prefix_replaceFrom (fun hmem => ha (List.mem_cons_of_mem d hmem)) htail
        | inr htail => exact ih cs.length (by omega) rfl htail

theorem not_occurs_replaceAll {s old : String} (ha : a ∉ old.toList) (hb : b ∉ old.toList)
    (hnew : ¬old.toList <:+: a :: new) :
    ¬Occurs old (replaceAll s old (String.ofList (a :: new ++ [b]))) := by
  unfold Occurs replaceAll
  rw [String.toList_ofList, String.toList_ofList]
  exact not_infix_replaceFrom ha hb hnew

end Replace

/-- A character in the debug form of a string. Beside the quote, the backslash and
the control characters every character stands for itself. -/
def debugChar (c : Char) : List Char :=
  if c = '\t' then ['\\', 't']
  else if c = '\r' then ['\\', 'r']
  else if c = '\n' then ['\\', 'n']
  else if c.toNat = 0 then ['\\', '0']
  else if c = '"' then ['\\', '"']
  else if c = '\\' then ['\\', '\\']
  else if c.toNat < 32 ∨ (127 ≤ c.toNat ∧ c.toNat < 160) then
    ['\\', 'u', '\x7b'] ++ Nat.toDigits 16 c.toNat ++ ['\x7d']
  else [c]

/-- The string in quotes. -/
def debug (s : String) : String :=
  String.ofList ('"' :: s.toList.flatMap debugChar ++ ['"'])

/-! ## Hexadecimal bytes -/

/-- A byte in two lowercase digits. -/
def hexByte (b : UInt8) : List Char := [Nat.digitChar (b.toNat / 16), Nat.digitChar (b.toNat % 16)]

def toHex (bytes : List UInt8) : String := String.ofList (bytes.flatMap hexByte)

theorem toHex_toList (bytes : List UInt8) : (toHex bytes).toList = bytes.flatMap hexByte :=
  String.toList_ofList

@[simp] theorem length_toHex (bytes : List UInt8) : (toHex bytes).toList.length = 2 * bytes.length := by
  rw [toHex_toList]
  induction bytes with
  | nil => rfl
  | cons b rest ih =>
    rw [List.flatMap_cons, List.length_append, ih, List.length_cons]
    show 2 + _ = _
    omega

theorem digit_of_mem_toHex {c : Char} {bytes : List UInt8} (h : c ∈ (toHex bytes).toList) :
    ∃ n < 16, c = Nat.digitChar n := by
  rw [toHex_toList] at h
  obtain ⟨b, -, hc⟩ := List.mem_flatMap.mp h
  have hb := b.toNat_lt
  cases List.mem_pair.mp hc with
  | inl hhigh => exact ⟨b.toNat / 16, by omega, hhigh⟩
  | inr hlow => exact ⟨b.toNat % 16, by omega, hlow⟩

theorem digitChar_inj : ∀ m < 16, ∀ n < 16, Nat.digitChar m = Nat.digitChar n → m = n := by decide

theorem hexByte_inj {a b : UInt8} (h : hexByte a = hexByte b) : a = b := by
  obtain ⟨hhigh, hlow⟩ : Nat.digitChar (a.toNat / 16) = Nat.digitChar (b.toNat / 16) ∧
      Nat.digitChar (a.toNat % 16) = Nat.digitChar (b.toNat % 16) := by
    simpa [hexByte] using h
  have ha := a.toNat_lt
  have hb := b.toNat_lt
  have hdiv := digitChar_inj _ (by omega) _ (by omega) hhigh
  have hmod := digitChar_inj _ (by omega) _ (by omega) hlow
  exact UInt8.toNat_inj.mp (by omega)

theorem toHex_inj {bytes bytes' : List UInt8} (h : toHex bytes = toHex bytes') : bytes = bytes' := by
  have hchars : bytes.flatMap hexByte = bytes'.flatMap hexByte := String.ofList_injective h
  clear h
  induction bytes generalizing bytes' with
  | nil =>
    cases bytes' with
    | nil => rfl
    | cons b' rest' => cases hchars
  | cons b rest ih =>
    cases bytes' with
    | nil => cases hchars
    | cons b' rest' =>
      obtain ⟨hbyte, hrest⟩ := List.append_inj hchars rfl
      rw [hexByte_inj hbyte, ih hrest]

end Text
