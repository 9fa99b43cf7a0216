-- SUMMARY: The texts an IP address may be written as, and that Go's net reads every one of them as the address.
import Ipgate.Lib.GoNet
import Ipgate.Lib.IpText

/-!
# IP addresses as text

An IPv6 address may be written in many ways: digits of either case, leading zeros, a
double colon for groups of zeros, its end in dotted notation. `IPAddr.Text` says which
texts are ones of an address; `parseIP` reads the address back from each of them, and
what `IP.String` prints is one.
-/

namespace GoNet

open Text

/-! ## Addresses and their texts -/

inductive IPAddr where
  | v4 (a b c d : UInt8)
  | v6 (groups : Vector UInt16 8)

/-- The bytes of a group. -/
def pair (w : UInt16) : List UInt8 := [UInt8.ofNat (w.toNat / 256), UInt8.ofNat w.toNat]

/-- An address as `net.IP` has it. -/
def IPAddr.bytes : IPAddr → List UInt8
  | .v4 a b c d => v4Prefix ++ [a, b, c, d]
  | .v6 groups => groups.toList.flatMap pair

/-- A group in hexadecimal digits. -/
structure Group where
  digits : List Char
  ne_nil : digits ≠ []
  length_le : digits.length ≤ 4
  hex : ∀ c ∈ digits, isHex c = true

def hexNumber (digits : List Char) : Nat := digits.foldl (fun n c => n * 16 + hexValue c) 0

def Group.value (g : Group) : UInt16 := UInt16.ofNat (hexNumber g.digits)

def dotted (a b c d : UInt8) : List Char :=
  ['.'].intercalate ([a, b, c, d].map fun n => Nat.toDigits 10 n.toNat)

/-- The group with two bytes. -/
def word (high low : UInt8) : UInt16 := UInt16.ofNat (high.toNat * 256 + low.toNat)

/-- Groups with colons between them. The last two may be in dotted notation. -/
inductive Groups : List Char → List UInt16 → Prop where
  | last (g : Group) : Groups g.digits [g.value]
  | dotted (a b c d : UInt8) : Groups (dotted a b c d) [word a b, word c d]
  | cons (g : Group) {t : List Char} {ws : List UInt16} (h : Groups t ws) :
      Groups (g.digits ++ ':' :: t) (g.value :: ws)

/-- Groups with colons between them, all in hexadecimal digits. -/
def front (gs : List Group) : List Char := [':'].intercalate (gs.map Group.digits)

/-- The texts of eight groups: all of them, or some at the front and at the back with a
double colon for the zeros between. -/
inductive V6Text : List Char → List UInt16 → Prop where
  | full {t : List Char} {ws : List UInt16} (h : Groups t ws) (hlen : ws.length = 8) : V6Text t ws
  | short (gs : List Group) {t : List Char} {ws : List UInt16} (h : t = [] ∧ ws = [] ∨ Groups t ws)
      (hlen : gs.length + ws.length ≤ 7) :
      V6Text (front gs ++ ':' :: ':' :: t)
        (gs.map Group.value ++ List.replicate (8 - gs.length - ws.length) 0 ++ ws)

/-- The texts of an address. -/
inductive IPAddr.Text : IPAddr → List Char → Prop where
  | v4 (a b c d : UInt8) : IPAddr.Text (.v4 a b c d) (dotted a b c d)
  | v6 {groups : Vector UInt16 8} {t : List Char} (h : V6Text t groups.toList) : IPAddr.Text (.v6 groups) t

/-! ## Digits -/

section Digits

variable {c : Char} {n : Nat} {t : List Char} {ws : List UInt16}

/-- Where the hexadecimal digits stand among the characters. -/
theorem range_of_isHex (h : isHex c = true) :
    (48 ≤ c.toNat ∧ c.toNat ≤ 57) ∨ (97 ≤ c.toNat ∧ c.toNat ≤ 102) ∨ (65 ≤ c.toNat ∧ c.toNat ≤ 70) := by
  simpa [isHex, Char.isDigit, Char.le_def, UInt32.le_iff_toNat_le, or_assoc] using h

theorem hexValue_lt (h : isHex c = true) : hexValue c < 16 := by
  have hrange := range_of_isHex h
  have hdigit : c.isDigit = true ↔ 48 ≤ c.toNat ∧ c.toNat ≤ 57 := by
    simp [Char.isDigit, UInt32.le_iff_toNat_le]
  have hlower : 'a' ≤ c ↔ 97 ≤ c.toNat := by
    simp [Char.le_def, UInt32.le_iff_toNat_le]
  unfold hexValue
  simp only [hdigit, hlower, show '0'.toNat = 48 from rfl, show 'a'.toNat = 97 from rfl, show 'A'.toNat = 65 from rfl]
  split
  · omega
  · split <;> omega

theorem hexNumber_lt {digits : List Char} (h : ∀ c ∈ digits, isHex c = true) :
    hexNumber digits < 16 ^ digits.length := by
  induction digits using List.reverseRecOn with
  | nil => decide
  | append_singleton digits c ih =>
    have hdigits := ih fun d hd => h d (List.mem_append_left _ hd)
    have hc : hexValue c < 16 := hexValue_lt (h c (List.mem_append_right _ (List.mem_singleton_self c)))
    unfold hexNumber at hdigits ⊢
    rw [List.foldl_append, List.length_append, List.length_singleton, Nat.pow_succ]
    simp only [List.foldl_cons, List.foldl_nil]
    omega

/-- The bytes that the loop takes a group for. -/
theorem groupBytes_digits (g : Group) : groupBytes g.digits = pair g.value := by
  have hlt : hexNumber g.digits < 65536 := by
    refine Nat.lt_of_lt_of_le (hexNumber_lt g.hex) ?_
    exact Nat.pow_le_pow_right (by decide) g.length_le
  have hvalue : g.value.toNat = hexNumber g.digits := by
    unfold Group.value
    exact UInt16.toNat_ofNat_of_lt' hlt
  unfold groupBytes pair
  rw [hvalue]
  rfl

theorem parseOctet_toDigits (b : UInt8) : parseOctet (Nat.toDigits 10 b.toNat) = some b := by
  have hdigits : (Nat.toDigits 10 b.toNat).all Char.isDigit = true :=
    List.all_eq_true.mpr fun c hc => Nat.isDigit_of_mem_toDigits (by decide) (by decide) hc
  have hzero : (Nat.toDigits 10 b.toNat).length = 1 ∨ (Nat.toDigits 10 b.toNat).head? ≠ some '0' := by
    by_cases hhead : (Nat.toDigits 10 b.toNat).head? = some '0'
    · rw [Net.head_toDigits hhead]
      exact .inl rfl
    · exact .inr hhead
  have hle : b.toNat ≤ 255 := Nat.le_of_lt_succ b.toNat_lt
  unfold parseOctet
  dsimp only
  rw [value_toDigits, if_pos ⟨Nat.toDigits_ne_nil, hdigits, hzero, hle⟩, UInt8.ofNat_toNat]

theorem parseIPv4Fields_dotted (a b c d : UInt8) : parseIPv4Fields (dotted a b c d) = some [a, b, c, d] := by
  have hdigits : ∀ l ∈ [a, b, c, d].map fun n => Nat.toDigits 10 n.toNat, '.' ∉ l := by
    intro l hl hdot
    obtain ⟨n, -, rfl⟩ := List.mem_map.mp hl
    cases Nat.isDigit_of_mem_toDigits (by decide) (by decide) hdot
  unfold parseIPv4Fields dotted
  rw [List.splitOn_intercalate '.' hdigits (by simp)]
  simp [parseOctet_toDigits]

end Digits

/-! ## Reading groups -/

section Reading

variable {c : Char} {t rest back : List Char} {ws : List UInt16} {turns : Nat} {ip : List UInt8} {ellipsis : Option Nat}

/-- The digits of a group end where something else follows. -/
theorem takeWhile_isHex (g : Group) (h : ∀ c ∈ rest.head?, isHex c = false) :
    (g.digits ++ rest).takeWhile isHex = g.digits := by
  rw [List.takeWhile_append_of_pos g.hex]
  cases rest with
  | nil => simp
  | cons d rest => rw [List.takeWhile_cons_of_neg (by simp [h d rfl]), List.append_nil]

theorem Group.digits_ok (g : Group) : ¬(g.digits = [] ∨ 4 < g.digits.length) :=
  not_or.mpr ⟨g.ne_nil, by have := g.length_le; omega⟩

/-- A group at the end of the text. -/
theorem parseGroups_last (g : Group) :
    parseGroups (turns + 1) g.digits ip ellipsis = some ([], ip ++ pair g.value, ellipsis) := by
  have htake : g.digits.takeWhile isHex = g.digits := by
    have h : (g.digits ++ []).takeWhile isHex = g.digits := takeWhile_isHex g (by simp)
    rwa [List.append_nil] at h
  unfold parseGroups
  dsimp only
  rw [htake, if_neg g.digits_ok, List.drop_length, if_neg (by simp), groupBytes_digits]

/-- A group with one more behind it. -/
theorem parseGroups_cons (g : Group) (hc : c ≠ ':') :
    parseGroups (turns + 1) (g.digits ++ ':' :: c :: t) ip ellipsis =
      parseGroups turns (c :: t) (ip ++ pair g.value) ellipsis := by
  rw [parseGroups]
  dsimp only
  rw [takeWhile_isHex g (by simp; decide), if_neg g.digits_ok, List.drop_left, if_neg (by simp), groupBytes_digits]
  split
  · next heq => cases heq
  · next heq => cases heq; exact (hc rfl).elim
  · next heq => cases heq; rfl
  · next h => exact (h c t rfl).elim

/-- A group with the double colon behind it. -/
theorem parseGroups_ellipsis (g : Group) :
    parseGroups (turns + 1) (g.digits ++ ':' :: ':' :: back) ip none =
      if back = [] then some ([], ip ++ pair g.value, some (ip ++ pair g.value).length)
      else parseGroups turns back (ip ++ pair g.value) (some (ip ++ pair g.value).length) := by
  rw [parseGroups]
  dsimp only
  rw [takeWhile_isHex g (by simp; decide), if_neg g.digits_ok, List.drop_left, if_neg (by simp), groupBytes_digits]
  rfl

theorem isHex_of_isDigit (h : c.isDigit = true) : isHex c = true := by
  unfold isHex
  rw [h]
  rfl

/-- The decimal digits of a byte, which are hexadecimal ones too. -/
def decimal (b : UInt8) : Group where
  digits := Nat.toDigits 10 b.toNat
  ne_nil := Nat.toDigits_ne_nil
  length_le := by
    have hlt := b.toNat_lt
    have hlen : (Nat.toDigits 10 b.toNat).length ≤ 3 :=
      (Nat.length_toDigits_le_iff (by decide) (by decide)).mpr (by omega)
    omega
  hex c hc := isHex_of_isDigit (Nat.isDigit_of_mem_toDigits (by decide) (by decide) hc)

theorem dotted_eq (a b c d : UInt8) :
    dotted a b c d =
      (decimal a).digits ++ '.' ::
        ((decimal b).digits ++ '.' :: ((decimal c).digits ++ '.' :: (decimal d).digits)) := by
  simp [dotted, decimal, List.intercalate]

theorem colon_not_mem_dotted (a b c d : UInt8) : ':' ∉ dotted a b c d := by
  have hnot (b : UInt8) : ':' ∉ (decimal b).digits := fun h => by
    cases Nat.isDigit_of_mem_toDigits (by decide) (by decide) h
  rw [dotted_eq]
  simp [hnot]

/-- The dotted end of the text. -/
theorem parseGroups_dotted (a b c d : UInt8) (hroom : ip.length + 4 ≤ 16)
    (hfull : ellipsis = none → ip.length + 4 = 16) :
    parseGroups (turns + 1) (dotted a b c d) ip ellipsis = some ([], ip ++ [a, b, c, d], ellipsis) := by
  have hfields : parseIPv4Fields (dotted a b c d) = some [a, b, c, d] := parseIPv4Fields_dotted a b c d
  have hfits : ¬(ellipsis = none ∧ ip.length ≠ 12 ∨ 16 < ip.length + 4) := by
    rintro (⟨hnone, hne⟩ | hlong)
    · have := hfull hnone
      omega
    · omega
  rw [dotted_eq] at hfields ⊢
  rw [parseGroups]
  dsimp only
  rw [takeWhile_isHex (decimal a) (by simp; decide), if_neg (decimal a).digits_ok, List.drop_left,
    if_pos List.head?_cons, if_neg hfits, hfields]
  rfl

theorem Group.head (g : Group) (rest : List Char) : ∃ c t, g.digits ++ rest = c :: t ∧ isHex c = true := by
  cases hg : g.digits with
  | nil => exact (g.ne_nil hg).elim
  | cons c cs => exact ⟨c, cs ++ rest, rfl, g.hex c (by rw [hg]; exact List.mem_cons_self ..)⟩

theorem Groups.head (h : Groups t ws) : ∃ c t', t = c :: t' ∧ isHex c = true := by
  cases h with
  | last g =>
    rw [← List.append_nil g.digits]
    exact g.head []
  | dotted a b c d =>
    rw [dotted_eq]
    exact (decimal a).head _
  | cons g h => exact g.head _

theorem pair_word (high low : UInt8) : pair (word high low) = [high, low] := by
  have hhigh := high.toNat_lt
  have hlow := low.toNat_lt
  have hvalue : (word high low).toNat = high.toNat * 256 + low.toNat := by
    unfold word
    exact UInt16.toNat_ofNat_of_lt' (by show _ < 65536; omega)
  have hdiv : (high.toNat * 256 + low.toNat) / 256 = high.toNat := by omega
  have hmod : UInt8.ofNat (high.toNat * 256 + low.toNat) = low := by
    apply UInt8.toNat_inj.mp
    rw [UInt8.toNat_ofNat']
    omega
  unfold pair
  rw [hvalue, hdiv, hmod, UInt8.ofNat_toNat]

/-- Groups are read into their bytes, as far as there is room. -/
theorem parseGroups_groups (h : Groups t ws) (hturns : ws.length ≤ turns) (hroom : ip.length + 2 * ws.length ≤ 16)
    (hfull : ellipsis = none → ip.length + 2 * ws.length = 16) :
    parseGroups turns t ip ellipsis = some ([], ip ++ ws.flatMap pair, ellipsis) := by
  induction h generalizing turns ip with
  | last g =>
    obtain ⟨turns, rfl⟩ : ∃ n, turns = n + 1 := ⟨turns - 1, by simp at hturns; omega⟩
    simpa using parseGroups_last g
  | dotted a b c d =>
    obtain ⟨turns, rfl⟩ : ∃ n, turns = n + 1 := ⟨turns - 1, by simp at hturns; omega⟩
    have hbytes : [word a b, word c d].flatMap pair = [a, b, c, d] := by
      simp [pair_word]
    rw [hbytes]
    exact parseGroups_dotted a b c d (by simpa using hroom) (by simpa using hfull)
  | @cons g t ws h ih =>
    obtain ⟨turns, rfl⟩ : ∃ n, turns = n + 1 := ⟨turns - 1, by simp at hturns; omega⟩
    obtain ⟨c, t', rfl, hc⟩ := h.head
    have hlen : (ip ++ pair g.value).length = ip.length + 2 := by simp [pair]
    rw [parseGroups_cons g (by rintro rfl; cases hc),
      ih (by simpa using hturns) (by rw [hlen]; simp at hroom; omega)
        (fun hnone => by rw [hlen]; have := hfull hnone; simp at this; omega)]
    simp

theorem front_cons (g g' : Group) (gs : List Group) : front (g :: g' :: gs) = g.digits ++ ':' :: front (g' :: gs) := by
  simp [front, List.intercalate_cons_cons]

theorem front_head (g : Group) (gs : List Group) : ∃ rest, front (g :: gs) = g.digits ++ rest := by
  cases gs with
  | nil => exact ⟨[], by simp [front]⟩
  | cons g' gs => exact ⟨_, front_cons g g' gs⟩

theorem parseGroups_front (g : Group) (gs : List Group) :
    parseGroups (gs.length + 1 + turns) (front (g :: gs) ++ ':' :: ':' :: back) ip none =
      let ip' := ip ++ ((g :: gs).map Group.value).flatMap pair
      if back = [] then some ([], ip', some ip'.length) else parseGroups turns back ip' (some ip'.length) := by
  induction gs generalizing g ip with
  | nil =>
    rw [show ([] : List Group).length + 1 + turns = turns + 1 by simp; omega]
    have h : parseGroups (turns + 1) (g.digits ++ ':' :: ':' :: back) ip none = _ := parseGroups_ellipsis g
    simpa [front] using h
  | cons g' gs ih =>
    have hturns : (g' :: gs).length + 1 + turns = (gs.length + 1 + turns) + 1 := by simp; omega
    obtain ⟨c, t, hhead, hc⟩ : ∃ c t, front (g' :: gs) ++ ':' :: ':' :: back = c :: t ∧ isHex c = true := by
      obtain ⟨rest, hrest⟩ := front_head g' gs
      rw [hrest, List.append_assoc]
      exact g'.head _
    have hstep : parseGroups (gs.length + 1 + turns + 1) (g.digits ++ ':' :: c :: t) ip none = _ :=
      parseGroups_cons g (by rintro rfl; cases hc)
    rw [← hhead] at hstep
    rw [hturns, front_cons, List.append_assoc, List.cons_append, hstep, ih]
    simp

end Reading

/-! ## The characters of an address -/

section Characters

variable {c : Char} {t : List Char} {ws : List UInt16} {gs : List Group}

/-- The characters of a text of an address. -/
def isAddrChar (c : Char) : Bool := isHex c || c == ':' || c == '.'

theorem Group.isAddrChar (g : Group) (h : c ∈ g.digits) : isAddrChar c = true := by
  unfold GoNet.isAddrChar
  rw [g.hex c h]
  rfl

theorem isAddrChar_dotted {a b c d : UInt8} {x : Char} (h : x ∈ dotted a b c d) : isAddrChar x = true := by
  rw [dotted_eq] at h
  simp only [List.mem_append, List.mem_cons] at h
  rcases h with h | rfl | h | rfl | h | rfl | h
  · exact (decimal a).isAddrChar h
  · decide
  · exact (decimal b).isAddrChar h
  · decide
  · exact (decimal c).isAddrChar h
  · decide
  · exact (decimal d).isAddrChar h

theorem Groups.isAddrChar (h : Groups t ws) (hc : c ∈ t) : isAddrChar c = true := by
  induction h with
  | last g => exact g.isAddrChar hc
  | dotted => exact isAddrChar_dotted hc
  | cons g h ih =>
    rw [List.mem_append, List.mem_cons] at hc
    rcases hc with hc | rfl | hc
    · exact g.isAddrChar hc
    · decide
    · exact ih hc

theorem isAddrChar_front (h : c ∈ front gs) : isAddrChar c = true := by
  cases Net.mem_intercalate h with
  | inl hcolon =>
    rw [hcolon]
    decide
  | inr hin =>
    obtain ⟨l, hl, hc⟩ := hin
    obtain ⟨g, -, rfl⟩ := List.mem_map.mp hl
    exact g.isAddrChar hc

theorem V6Text.isAddrChar (h : V6Text t ws) (hc : c ∈ t) : isAddrChar c = true := by
  cases h with
  | full h => exact h.isAddrChar hc
  | short gs h =>
    simp only [List.mem_append, List.mem_cons] at hc
    rcases hc with hc | rfl | rfl | hc
    · exact isAddrChar_front hc
    · decide
    · decide
    · cases h with
      | inl hnil =>
        rw [hnil.1] at hc
        cases hc
      | inr h => exact h.isAddrChar hc

/-- In front of the first colon there are digits only. -/
theorem V6Text.first_colon (h : V6Text t ws) : ∃ pre rest, t = pre ++ ':' :: rest ∧ ∀ c ∈ pre, isHex c = true := by
  cases h with
  | full h hlen =>
    cases h with
    | last | dotted => cases hlen
    | cons g h => exact ⟨g.digits, _, rfl, g.hex⟩
  | short gs h =>
    cases gs with
    | nil => exact ⟨[], _, rfl, by simp⟩
    | cons g gs =>
      cases gs with
      | nil => exact ⟨g.digits, _, by rw [front, List.map_singleton, List.intercalate_singleton], g.hex⟩
      | cons g' gs => exact ⟨g.digits, _, by rw [front_cons, List.append_assoc, List.cons_append], g.hex⟩

theorem Groups.count_colon (h : Groups t ws) : ws.length ≤ t.count ':' + 2 := by
  induction h with
  | last g => simp
  | dotted => simp
  | cons g h ih =>
    rw [List.count_append, List.count_cons_self, List.length_cons]
    omega

/-- There are two colons at least. -/
theorem V6Text.two_colons (h : V6Text t ws) : 2 ≤ t.count ':' := by
  cases h with
  | full h hlen =>
    have hcount := h.count_colon
    omega
  | short gs h =>
    rw [List.count_append, List.count_cons_self, List.count_cons_self]
    omega

end Characters

/-! ## Reading an address -/

section Addresses

variable {t : List Char} {ws : List UInt16} {ip : IPAddr}

theorem length_flatMap_pair (ws : List UInt16) : (ws.flatMap pair).length = 2 * ws.length := by
  induction ws with
  | nil => rfl
  | cons w ws ih => simp [ih, pair]; omega

theorem flatMap_pair_zeros (n : Nat) : (List.replicate n (0 : UInt16)).flatMap pair = List.replicate (2 * n) 0 := by
  induction n with
  | zero => rfl
  | succ n ih =>
    rw [List.replicate_succ, List.flatMap_cons, ih, Nat.mul_succ]
    rfl

/-- An address that does not begin with the double colon is read group by group. -/
theorem parseIPv6_groups (h : ∃ c t', t = c :: t' ∧ isHex c = true) (hzone : '%' ∉ t) :
    parseIPv6 t = (parseGroups 8 t [] none).bind expand := by
  obtain ⟨c, t', rfl, hc⟩ := h
  unfold parseIPv6
  rw [if_neg hzone]
  split
  · next heq => cases heq; cases hc
  · next heq => cases heq; cases hc
  · rfl

/-- Zeros go where the double colon stands. -/
theorem expand_ellipsis {front back : List UInt8} (hlen : front.length + back.length < 16) :
    expand ([], front ++ back, some front.length) =
      some (front ++ List.replicate (16 - (front.length + back.length)) 0 ++ back) := by
  unfold expand
  dsimp only
  rw [List.length_append, if_pos hlen, List.take_left, List.drop_left]

/-- The bytes of groups with zeros between them. -/
theorem flatMap_pair_short (gs : List Group) (ws : List UInt16) :
    (gs.map Group.value ++ List.replicate (8 - gs.length - ws.length) 0 ++ ws).flatMap pair =
      (gs.map Group.value).flatMap pair ++
        List.replicate (16 - (((gs.map Group.value).flatMap pair).length + (ws.flatMap pair).length)) 0 ++
        ws.flatMap pair := by
  have hzeros : 2 * (8 - gs.length - ws.length) = 16 - (2 * gs.length + 2 * ws.length) := by omega
  rw [List.flatMap_append, List.flatMap_append, flatMap_pair_zeros, length_flatMap_pair, length_flatMap_pair,
    List.length_map, hzeros]

theorem parseIPv6_short {gs : List Group} (h : t = [] ∧ ws = [] ∨ Groups t ws) (hlen : gs.length + ws.length ≤ 7)
    (hzone : '%' ∉ front gs ++ ':' :: ':' :: t) : parseIPv6 (front gs ++ ':' :: ':' :: t) =
      some ((gs.map Group.value ++ List.replicate (8 - gs.length - ws.length) 0 ++ ws).flatMap pair) := by
  have hroom : ((gs.map Group.value).flatMap pair).length + (ws.flatMap pair).length < 16 := by
    rw [length_flatMap_pair, length_flatMap_pair, List.length_map]
    omega
  have hexpand := expand_ellipsis hroom
  rw [flatMap_pair_short, ← hexpand]
  cases gs with
  | nil =>
    unfold parseIPv6
    rw [if_neg hzone]
    cases h with
    | inl hnil =>
      obtain ⟨rfl, rfl⟩ := hnil
      decide
    | inr h =>
      obtain ⟨c, t', rfl, hc⟩ := h.head
      have hread : parseGroups 8 (c :: t') [] (some 0) = some ([], [] ++ ws.flatMap pair, some 0) :=
        parseGroups_groups h (by simp at hlen; omega) (by simp at hlen ⊢; omega) (fun hnone => by cases hnone)
      show (parseGroups 8 (c :: t') [] (some 0)).bind expand = _
      rw [hread]
      rfl
  | cons g gs =>
    obtain ⟨rest, hrest⟩ := front_head g gs
    have hhead : ∃ c t', front (g :: gs) ++ ':' :: ':' :: t = c :: t' ∧ isHex c = true := by
      rw [hrest, List.append_assoc]
      exact g.head _
    -- the turns left for the groups behind the ellipsis
    obtain ⟨turns, hturns⟩ : ∃ turns, 8 = gs.length + 1 + turns := ⟨8 - (gs.length + 1), by simp at hlen; omega⟩
    rw [parseIPv6_groups hhead hzone, hturns, parseGroups_front]
    simp only [List.nil_append]
    cases h with
    | inl hnil =>
      obtain ⟨rfl, rfl⟩ := hnil
      rw [if_pos rfl]
      simp
    | inr h =>
      obtain ⟨c, t', rfl, hc⟩ := h.head
      have hlength : (((g :: gs).map Group.value).flatMap pair).length = 2 * (gs.length + 1) := by
        rw [length_flatMap_pair, List.length_map, List.length_cons]
      have hread : parseGroups turns (c :: t') (((g :: gs).map Group.value).flatMap pair)
          (some (((g :: gs).map Group.value).flatMap pair).length) = some ([], _, _) :=
        parseGroups_groups h (by simp at hlen; omega) (by rw [hlength]; simp at hlen; omega)
          (fun hnone => by cases hnone)
      rw [if_neg (List.cons_ne_nil c t'), hread]
      rfl

theorem parseIPv6_text (h : V6Text t ws) : parseIPv6 t = some (ws.flatMap pair) := by
  have hzone : '%' ∉ t := fun hin => by
    have hbad := h.isAddrChar hin
    revert hbad
    decide
  cases h with
  | full h hlen =>
    have hread : parseGroups 8 t [] none = some ([], [] ++ ws.flatMap pair, none) :=
      parseGroups_groups h (by omega) (by simp; omega) (fun _ => by simp; omega)
    have hbytes := length_flatMap_pair ws
    rw [parseIPv6_groups h.head hzone, hread, Option.bind_some, List.nil_append]
    unfold expand
    dsimp only
    rw [if_neg (by omega)]
  | @short gs t ws h hlen => exact parseIPv6_short h hlen hzone

/-- The character that tells an address of one family from one of the other. -/
theorem find_special {pre rest : List Char} {c : Char} (hpre : ∀ d ∈ pre, isHex d = true)
    (hc : ['.', ':', '%'].contains c = true) : (pre ++ c :: rest).find? (['.', ':', '%'].contains ·) = some c := by
  have hnone : pre.find? (['.', ':', '%'].contains ·) = none := by
    rw [List.find?_eq_none]
    intro d hd hin
    have hhex := hpre d hd
    simp only [List.contains_iff_mem, List.mem_cons, List.not_mem_nil, or_false] at hin
    rcases hin with rfl | rfl | rfl
    · cases hhex
    · cases hhex
    · cases hhex
  rw [List.find?_append, hnone, List.find?_cons_of_pos hc]
  rfl

/-- Every text of an address is read as the address. -/
theorem parseIP_text (h : ip.Text t) : parseIP t = some ip.bytes := by
  cases h with
  | v4 a b c d =>
    have hfields : parseIPv4Fields (dotted a b c d) = some [a, b, c, d] := parseIPv4Fields_dotted a b c d
    unfold parseIP
    rw [dotted_eq, find_special (decimal a).hex rfl, ← dotted_eq]
    rw [hfields]
    rfl
  | v6 h =>
    have hread := parseIPv6_text h
    obtain ⟨pre, rest, rfl, hpre⟩ := h.first_colon
    unfold parseIP
    rw [find_special hpre rfl]
    exact hread

/-- With a zone behind it no text is read. -/
theorem parseIP_zone (h : V6Text t ws) (zone : List Char) : parseIP (t ++ '%' :: zone) = none := by
  obtain ⟨pre, rest, rfl, hpre⟩ := h.first_colon
  unfold parseIP
  rw [List.append_assoc, List.cons_append, find_special hpre rfl]
  show parseIPv6 _ = none
  unfold parseIPv6
  rw [if_pos (by simp)]

end Addresses

/-! ## What is printed -/

section Printed

variable {n : Nat} {gs : List UInt16}

theorem hexDigit_spec : ∀ d < 16, isHex (Nat.digitChar d) = true ∧ hexValue (Nat.digitChar d) = d := by decide

theorem hexNumber_append (cs : List Char) (c : Char) : hexNumber (cs ++ [c]) = hexNumber cs * 16 + hexValue c := by
  simp [hexNumber]

/-- The hexadecimal digits of a number, with its value. -/
theorem toDigits_hex (n : Nat) :
    (∀ c ∈ Nat.toDigits 16 n, isHex c = true) ∧ hexNumber (Nat.toDigits 16 n) = n := by
  induction n using Nat.strong_induction_on with
  | h n ih =>
    by_cases hn : n < 16
    · obtain ⟨hhex, hvalue⟩ := hexDigit_spec n hn
      rw [Nat.toDigits_of_lt_base hn]
      refine ⟨fun c hc => ?_, ?_⟩
      · rw [List.mem_singleton.mp hc]
        exact hhex
      · simpa [hexNumber] using hvalue
    · obtain ⟨hhex, hvalue⟩ := ih (n / 16) (by omega)
      obtain ⟨hlast, hdigit⟩ := hexDigit_spec (n % 16) (by omega)
      rw [Nat.toDigits_of_base_le (by decide) (by omega)]
      refine ⟨fun c hc => ?_, ?_⟩
      · cases List.mem_append.mp hc with
        | inl hc => exact hhex c hc
        | inr hc =>
          rw [List.mem_singleton.mp hc]
          exact hlast
      · rw [hexNumber_append, hvalue, hdigit]
        omega

/-- A group as it is printed. -/
def printed (w : UInt16) : Group where
  digits := Nat.toDigits 16 w.toNat
  ne_nil := Nat.toDigits_ne_nil
  length_le := (Nat.length_toDigits_le_iff (by decide) (by decide)).mpr w.toNat_lt
  hex := (toDigits_hex w.toNat).1

@[simp] theorem printed_value (w : UInt16) : (printed w).value = w := by
  unfold Group.value printed
  rw [(toDigits_hex w.toNat).2, UInt16.ofNat_toNat]

theorem map_printed_value (gs : List UInt16) : (gs.map printed).map Group.value = gs := by
  simp [Function.comp_def]

theorem groups_front {g : Group} {gs : List Group} : Groups (front (g :: gs)) ((g :: gs).map Group.value) := by
  induction gs generalizing g with
  | nil =>
    simp only [front, List.map_singleton, List.intercalate_singleton]
    exact .last g
  | cons g' gs ih =>
    rw [front_cons]
    exact .cons g ih

theorem groups_flatMap_pair (gs : List UInt16) : groups (gs.flatMap pair) = gs.map UInt16.toNat := by
  induction gs with
  | nil => rfl
  | cons w ws ih =>
    have hlt := w.toNat_lt
    have hhigh : (UInt8.ofNat (w.toNat / 256)).toNat = w.toNat / 256 :=
      UInt8.toNat_ofNat_of_lt' (by show _ < 256; omega)
    have hlow : (UInt8.ofNat w.toNat).toNat = w.toNat % 256 := by rw [UInt8.toNat_ofNat']
    have hword : w.toNat / 256 * 256 + w.toNat % 256 = w.toNat := Nat.div_add_mod' ..
    rw [List.flatMap_cons, pair, List.cons_append, List.cons_append, List.nil_append, groups, ih, hhigh, hlow, hword,
      List.map_cons]

/-- The run found is one of at least two zeros. -/
theorem zeroRun_spec {gs : List Nat} {i n : Nat} (h : zeroRun gs = some (i, n)) :
    2 ≤ n ∧ n = ((gs.drop i).takeWhile (· = 0)).length := by
  have hfold (is : List Nat) (best : Option (Nat × Nat))
      (hbest : ∀ i n, best = some (i, n) → 2 ≤ n ∧ n = ((gs.drop i).takeWhile (· = 0)).length) (i n : Nat)
      (h : is.foldl (fun best i =>
        let n := ((gs.drop i).takeWhile (· = 0)).length
        if 2 ≤ n ∧ (best.map Prod.snd).getD 0 < n then some (i, n) else best) best = some (i, n)) :
      2 ≤ n ∧ n = ((gs.drop i).takeWhile (· = 0)).length := by
    induction is generalizing best with
    | nil => exact hbest i n h
    | cons j is ih =>
      refine ih _ ?_ h
      intro i' n' heq
      dsimp only at heq
      split at heq
      · next hlonger =>
        cases heq
        exact ⟨hlonger.1, rfl⟩
      · exact hbest i' n' heq
  exact hfold _ none (fun _ _ h => by cases h) i n h

theorem hex_eq_front (gs : List UInt16) :
    joinWith ':' ((gs.map UInt16.toNat).map (Nat.toDigits 16)) = front (gs.map printed) := by
  simp [joinWith, front, printed, Function.comp_def]

/-- The text of printed groups, if there are any. -/
theorem groups_printed (gs : List UInt16) :
    front (gs.map printed) = [] ∧ gs = [] ∨ Groups (front (gs.map printed)) gs := by
  cases gs with
  | nil => exact .inl ⟨rfl, rfl⟩
  | cons w ws =>
    have h : Groups (front ((w :: ws).map printed)) (((w :: ws).map printed).map Group.value) := groups_front
    rw [map_printed_value] at h
    exact .inr h

/-- A run of zeros with the groups on both sides. -/
theorem split_zeroRun {i n : Nat} (h : zeroRun (gs.map UInt16.toNat) = some (i, n)) :
    2 ≤ n ∧ i + n ≤ gs.length ∧ gs = gs.take i ++ List.replicate n 0 ++ gs.drop (i + n) := by
  obtain ⟨htwo, hn⟩ := zeroRun_spec h
  have hzeros : (gs.drop i).takeWhile (· = 0) = List.replicate n 0 := by
    have hlength : ((gs.drop i).takeWhile (· = 0)).length = n := by
      rw [hn, ← List.map_drop, List.takeWhile_map, List.length_map]
      congr 2
      funext w
      simp [← UInt16.toNat_inj]
    rw [← hlength]
    exact List.eq_replicate_of_mem fun w hw => by simpa using List.mem_takeWhile_imp hw
  have hle : n ≤ (gs.drop i).length := by
    rw [← List.length_replicate (n := n) (a := (0 : UInt16)), ← hzeros]
    exact (List.takeWhile_prefix _).length_le
  have hdrop : (gs.drop i).dropWhile (· = 0) = gs.drop (i + n) := by
    have hparts := List.takeWhile_append_dropWhile (p := (· = 0)) (l := gs.drop i)
    rw [hzeros] at hparts
    have hskip := congrArg (List.drop n) hparts
    rw [List.drop_left' List.length_replicate, List.drop_drop] at hskip
    exact hskip
  refine ⟨htwo, by rw [List.length_drop] at hle; omega, ?_⟩
  rw [← hzeros, ← hdrop, List.append_assoc, List.takeWhile_append_dropWhile, List.take_append_drop]

/-- What is printed for eight groups is a text of them. -/
theorem v6Text_printed (hlen : gs.length = 8) (hmapped : (gs.flatMap pair).take 12 ≠ v4Prefix) :
    V6Text (ipString (gs.flatMap pair)) gs := by
  unfold ipString
  rw [if_neg hmapped, groups_flatMap_pair]
  dsimp only
  cases hrun : zeroRun (gs.map UInt16.toNat) with
  | none =>
    dsimp only
    rw [hex_eq_front]
    cases groups_printed gs with
    | inl hnil =>
      rw [hnil.2] at hlen
      cases hlen
    | inr h => exact .full h hlen
  | some run =>
    obtain ⟨i, n⟩ := run
    obtain ⟨htwo, hle, hsplit⟩ := split_zeroRun hrun
    dsimp only
    rw [← List.map_take, ← List.map_drop, hex_eq_front, hex_eq_front, List.append_assoc]
    have hfront : ((gs.take i).map printed).length = i := by
      rw [List.length_map, List.length_take]
      omega
    have hback : (gs.drop (i + n)).length = 8 - (i + n) := by rw [List.length_drop, hlen]
    have hshort := V6Text.short ((gs.take i).map printed) (groups_printed (gs.drop (i + n)))
      (by rw [hfront, hback]; omega)
    rw [map_printed_value, hfront, hback, show 8 - i - (8 - (i + n)) = n by omega, ← hsplit] at hshort
    exact hshort

/-- What is printed is a text of the address, or of the IPv4 address with the same bytes. -/
theorem text_ipString (ip : IPAddr) : ∃ ip' : IPAddr, ip'.bytes = ip.bytes ∧ ip'.Text (ipString ip.bytes) := by
  have hv4 (a b c d : UInt8) : IPAddr.Text (.v4 a b c d) (ipString (v4Prefix ++ [a, b, c, d])) := .v4 a b c d
  cases ip with
  | v4 a b c d => exact ⟨.v4 a b c d, rfl, hv4 a b c d⟩
  | v6 groups =>
    have hlen : groups.toList.length = 8 := groups.length_toList
    by_cases hmapped : (groups.toList.flatMap pair).take 12 = v4Prefix
    · have hrest : ((groups.toList.flatMap pair).drop 12).length = 4 := by
        rw [List.length_drop, length_flatMap_pair, hlen]
      obtain ⟨a, b, c, d, habcd⟩ := List.length_eq_four.mp hrest
      have hbytes : groups.toList.flatMap pair = v4Prefix ++ [a, b, c, d] := by
        rw [← hmapped, ← habcd, List.take_append_drop]
      refine ⟨.v4 a b c d, hbytes.symm, ?_⟩
      show IPAddr.Text _ (ipString (groups.toList.flatMap pair))
      rw [hbytes]
      exact hv4 a b c d
    · exact ⟨.v6 groups, rfl, .v6 (v6Text_printed hlen hmapped)⟩

/-- What is printed is read as the address. -/
theorem parseIP_ipString (ip : IPAddr) : parseIP (ipString ip.bytes) = some ip.bytes := by
  obtain ⟨ip', hbytes, htext⟩ := text_ipString ip
  rw [parseIP_text htext, hbytes]

end Printed

/-! ## Host and port -/

section HostPort

variable {host port t : List Char}

/-- `JoinHostPort`. -/
def joinHostPort (host port : List Char) : List Char :=
  if ':' ∈ host ∨ '%' ∈ host then '[' :: host ++ ']' :: ':' :: port else host ++ ':' :: port

/-- The text up to its last colon, and what is behind. -/
theorem exists_last_colon (h : ':' ∈ t) : ∃ before behind, t = before ++ ':' :: behind ∧ ':' ∉ behind := by
  obtain ⟨behind, before, hsplit, hnot⟩ := List.eq_append_cons_of_mem (List.mem_reverse.mpr h)
  refine ⟨before.reverse, behind.reverse, ?_, by simpa using hnot⟩
  rw [← List.reverse_reverse t, hsplit]
  simp

theorem head_ne_bracket {rest : List Char} (hrest : rest.head? ≠ some '[') (h : '[' ∉ t) :
    (t ++ rest).head? ≠ some '[' := by
  cases t with
  | nil => exact hrest
  | cons c t =>
    intro heq
    cases heq
    exact h (List.mem_cons_self ..)

theorem splitHostPort_joinHostPort (hhost : '[' ∉ host ∧ ']' ∉ host) (hport : ∀ c ∈ port, c.isDigit = true) :
    splitHostPort (joinHostPort host port) = some (host, port) := by
  have hnot (c : Char) (hc : c.isDigit = false) : c ∉ port := fun hin => by
    rw [hport c hin] at hc
    cases hc
  unfold joinHostPort
  split
  · next hcolon =>
    have hsplit : '[' :: host ++ ']' :: ':' :: port = ('[' :: host ++ [']']) ++ ':' :: port := by simp
    unfold splitHostPort
    rw [hsplit, rsplitOnce_append (hnot ':' rfl), ← hsplit]
    dsimp only
    rw [List.cons_append, if_pos List.head?_cons, ← List.cons_append,
      splitOnce_append (c := ']') (a := '[' :: host) (b := ':' :: port) (by simp [hhost.2])]
    simp [hhost.1, hnot '[' rfl, hnot ']' rfl]
  · next hcolon =>
    obtain ⟨hnocolon, hnozone⟩ := not_or.mp hcolon
    unfold splitHostPort
    rw [rsplitOnce_append (hnot ':' rfl)]
    dsimp only
    rw [if_neg (head_ne_bracket (by simp) hhost.1), if_neg]
    simp [hnocolon, hhost.1, hhost.2, hnot '[' rfl, hnot ']' rfl]

/-- A host in brackets alone has no port. -/
theorem splitHostPort_brackets (hhost : ']' ∉ host) : splitHostPort ('[' :: host ++ [']']) = none := by
  unfold splitHostPort
  by_cases hcolon : ':' ∈ host
  · obtain ⟨before, behind, rfl, hlast⟩ := exists_last_colon hcolon
    have hsplit : '[' :: (before ++ ':' :: behind) ++ [']'] = ('[' :: before) ++ ':' :: (behind ++ [']']) := by simp
    have hclosing : splitOnce ']' ('[' :: (before ++ ':' :: behind) ++ [']']) =
        some ('[' :: (before ++ ':' :: behind), []) := splitOnce_append (by simp at hhost ⊢; exact hhost)
    have hrsplit : rsplitOnce ':' ('[' :: (before ++ ':' :: behind) ++ [']']) =
        some ('[' :: before, behind ++ [']']) := by
      rw [hsplit]
      exact rsplitOnce_append (by simpa using hlast)
    rw [hrsplit, hclosing]
    dsimp only
    rw [if_pos, if_pos]
    · simp
      omega
    · rfl
  · rw [rsplitOnce_of_not_mem (by simpa using hcolon)]

/-- Neither has one with two colons at least, or with none. -/
theorem splitHostPort_bare (hbracket : '[' ∉ t) (h : t.count ':' ≠ 1) : splitHostPort t = none := by
  unfold splitHostPort
  by_cases hcolon : ':' ∈ t
  · obtain ⟨before, behind, rfl, hlast⟩ := exists_last_colon hcolon
    have hbefore : ':' ∈ before := by
      rw [List.count_append, List.count_cons_self, List.count_eq_zero_of_not_mem hlast] at h
      exact List.count_pos_iff.mp (by omega)
    rw [rsplitOnce_append hlast]
    dsimp only
    rw [if_neg, if_pos (.inl hbefore)]
    rw [← List.append_nil (before ++ ':' :: behind)]
    exact head_ne_bracket (by simp) hbracket
  · rw [rsplitOnce_of_not_mem hcolon]

end HostPort

end GoNet
