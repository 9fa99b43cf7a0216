-- SUMMARY: parse.rs: reading a set from nft's plain text, and that both readers see the same elements.
import Ipgate.Agent.Nft.Parse

/-!
# The readers of both outputs

An nft without `-j` prints a set as text. Elements, documents and texts are modelled as nft prints
them, and what either reader makes of them is compared.
-/

namespace Ipgate.Parse

open Net Json

/-! ## The reader of the text -/

/-- A number of 64 bits from its digits. -/
def parseI64 (digits : List Char) : Option Int64 :=
  let n := digits.foldl (fun n c => n * 10 + (c.toNat - '0'.toNat)) 0
  if digits ≠ [] ∧ n < 9223372036854775808 then some (Int64.ofNat n) else none

def unitSeconds (c : Char) : Option Int64 :=
  match c with
  | 'w' => some (7 * 86400)
  | 'd' => some 86400
  | 'h' => some 3600
  | 'm' => some 60
  | 's' => some 1
  | _ => none

/-- The loop over the characters; digits behind the last unit are not looked at. -/
def durationFrom (total : Int64) (num : List Char) (sawUnit : Bool) : List Char → Option Int64
  | [] => if sawUnit then some total else none
  | c :: cs =>
    if c.isDigit then durationFrom total (num ++ [c]) sawUnit cs
    else do
      let n ← parseI64 num
      let unit ← unitSeconds c
      durationFrom (total + n * unit) [] true cs

def parseNftDuration (cs : List Char) : Option Int64 := durationFrom 0 [] false cs

/-- The loop that looks for `expires`; the last one counts. -/
def expiresFrom (now : DateTime) (expiresAt : Option DateTime) : List (List Char) → Outcome (Option DateTime)
  | [] => .ok expiresAt
  | [_] => .ok expiresAt
  | t :: d :: rest =>
    if t = "expires".toList then
      match parseNftDuration d with
      | some secs => do
        let time ← addSeconds now secs.toInt
        expiresFrom now (some time) rest
      | none => expiresFrom now expiresAt rest
    else expiresFrom now expiresAt (d :: rest)

/-- A network, or the network of an address, given how the ipnet crate reads a network. -/
def readTarget (parseNet : List Char → Option IpNet) (addr : List Char) : Option IpNet :=
  match parseNet addr with
  | some net => some net
  | none =>
    match hostToNet (String.ofList addr) with
    | .ok net => some net
    | _ => none

/-- One part; none where it is passed over. -/
def parsePart (parseNet : List Char → Option IpNet) (now : DateTime) (raw : List Char) :
    Outcome (Option KernelElement) :=
  let part := Text.trimChars raw
  if part = [] then .ok none
  else
    match Text.splitWhitespace part with
    | [] => .ok none
    | addr :: rest =>
      match readTarget parseNet addr with
      | none => .ok none
      | some target => do
        let expiresAt ← expiresFrom now none (addr :: rest)
        return some ⟨target, expiresAt⟩

def parseParts (parseNet : List Char → Option IpNet) (now : DateTime) : List (List Char) → Outcome (List KernelElement)
  | [] => .ok []
  | raw :: rest => do
    let e ← parsePart parseNet now raw
    let es ← parseParts parseNet now rest
    return e.toList ++ es

def parseSetElementsText (parseNet : List Char → Option IpNet) (text : String) (now : DateTime) :
    Outcome (List KernelElement) :=
  match Text.fromWord "elements".toList text.toList with
  | none => .ok []
  | some found =>
    match Text.splitOnce '{' found with
    | none => .ok []
    | some (_, after) => do
      let (inside, _) ← .ofOption .unclosed (Text.splitOnce '}' after)
      parseParts parseNet now (inside.splitOn ',')

/-! ## What nft prints -/

inductive TimeUnit where
  | week
  | day
  | hour
  | minute
  | second
  deriving DecidableEq

def TimeUnit.letter : TimeUnit → Char
  | .week => 'w'
  | .day => 'd'
  | .hour => 'h'
  | .minute => 'm'
  | .second => 's'

def TimeUnit.seconds : TimeUnit → Nat
  | .week => 604800
  | .day => 86400
  | .hour => 3600
  | .minute => 60
  | .second => 1

/-- A length of time in parts, as it is printed. The kernel counts milliseconds in 64 bits. -/
structure Duration where
  parts : List (Nat × TimeUnit)
  ne_nil : parts ≠ []
  lt : (parts.map fun p => p.1 * p.2.seconds).sum < 9223372036854775808

namespace Duration

def seconds (d : Duration) : Nat := (d.parts.map fun p => p.1 * p.2.seconds).sum

def text (d : Duration) : List Char := d.parts.flatMap fun p => Nat.toDigits 10 p.1 ++ [p.2.letter]

def json (d : Duration) : Value := .number (.posInt (UInt64.ofNat d.seconds))

end Duration

/-- The network of an address with a length, or without one. -/
def netOf (ip : IpAddr) : Option Nat → Option IpNet
  | none => some (hostNet ip)
  | some len => ipNet ip len

/-- An element of a set: an address as it is printed, perhaps a length, and perhaps a timeout and what is
left of it. -/
structure Element where
  addr : String
  len : Option Nat
  net : IpNet
  reads : ((parseIpAddr addr.toList).bind fun ip => netOf ip len) = some net
  timeout : Option Duration
  expires : Option Duration

namespace Element

/-- The element of the kernel that is printed. -/
def kernel (now : DateTime) (e : Element) : KernelElement :=
  ⟨e.net, e.expires.map fun d => later now d.seconds⟩

/-- An address, or a prefix. -/
def val (e : Element) : Value :=
  match e.len with
  | none => .string e.addr
  | some len => .object [("prefix", .object [("addr", .string e.addr), ("len", .number (.posInt (UInt64.ofNat len)))])]

def field (key : String) (d : Option Duration) : List (String × Value) := (d.map fun d => (key, d.json)).toList

def json (e : Element) : Value :=
  if e.timeout = none ∧ e.expires = none then e.val
  else .object [("elem", .object ([("val", e.val)] ++ field "timeout" e.timeout ++ field "expires" e.expires))]

def addrText (e : Element) : List Char :=
  e.addr.toList ++ (e.len.map fun len => '/' :: Nat.toDigits 10 len).getD []

def suffix (word : String) (d : Option Duration) : List (List Char) :=
  (d.map fun d => [word.toList, d.text]).getD []

def words (e : Element) : List (List Char) := [e.addrText] ++ suffix "timeout" e.timeout ++ suffix "expires" e.expires

def text (e : Element) : List Char := [' '].intercalate e.words

end Element

/-- A JSON document around the elements of a set, which is the only one. -/
structure JsonLayout where
  before : List Value
  fields : List (String × Value)
  after : List Value
  no_set : ∀ item ∈ before ++ after, item.get "set" = none
  no_elem : Value.lookup fields "elem" = none

/-- A set without elements has no `elem` key. -/
def JsonLayout.document (l : JsonLayout) (es : List Element) : Value :=
  .object [("nftables", .array (l.before ++ [.object [("set", .object (l.fields ++
    if es = [] then [] else [("elem", .array (es.map Element.json))]))]] ++ l.after))]

/-- An element with line breaks and blanks around it. -/
structure Spaced where
  front : List Char
  element : Element
  back : List Char
  blank : ∀ c ∈ front ++ back, Text.isWhitespace c = true

def Spaced.text (s : Spaced) : List Char := s.front ++ s.element.text ++ s.back

/-- The text around the elements of a set; nothing else in it is named as they are. -/
structure TextLayout where
  header : List Char
  footer : List Char
  unnamed : ¬ "elements".toList <:+: header ++ footer

/-- A set without elements has no line for them. -/
def TextLayout.text (l : TextLayout) (es : List Spaced) : String :=
  String.ofList (l.header ++
    ((if es = [] then [] else "elements = \x7b".toList ++ [','].intercalate (es.map Spaced.text) ++ ['}']) ++ l.footer))

/-- How the ipnet crate reads: an address, a slash and a length stand for the network, and there is none
without a slash. -/
structure ReadsNets (parseNet : List Char → Option IpNet) : Prop where
  reads : ∀ addr len ip net, parseIpAddr addr = some ip → ipNet ip len = some net →
    parseNet (addr ++ '/' :: Nat.toDigits 10 len) = some net
  slash : ∀ cs, '/' ∉ cs → parseNet cs = none

/-! ## Durations -/

section Durations

variable {n total : Nat} {num ds cs : List Char} {saw : Bool}

theorem durationFrom_digits {total : Int64} (h : ∀ c ∈ ds, c.isDigit = true) :
    durationFrom total num saw (ds ++ cs) = durationFrom total (num ++ ds) saw cs := by
  induction ds generalizing num with
  | nil => rw [List.nil_append, List.append_nil]
  | cons d ds ih =>
    rw [List.cons_append, durationFrom, if_pos (h d (List.mem_cons_self ..)),
      ih fun c hc => h c (List.mem_cons_of_mem d hc), List.append_assoc, List.singleton_append]

theorem parseI64_toDigits (h : n < 9223372036854775808) : parseI64 (Nat.toDigits 10 n) = some (Int64.ofNat n) := by
  unfold parseI64
  dsimp only
  rw [Text.value_toDigits, if_pos ⟨Nat.toDigits_ne_nil, h⟩]

theorem unitSeconds_letter (u : TimeUnit) : unitSeconds u.letter = some (Int64.ofNat u.seconds) := by
  cases u with
  | week => rfl
  | day => rfl
  | hour => rfl
  | minute => rfl
  | second => rfl

theorem letter_not_isDigit (u : TimeUnit) : u.letter.isDigit = false := by
  cases u with
  | week => decide
  | day => decide
  | hour => decide
  | minute => decide
  | second => decide

/-- One part is added to the total. -/
theorem durationFrom_part (u : TimeUnit) (h : n < 9223372036854775808) :
    durationFrom (Int64.ofNat total) [] saw (Nat.toDigits 10 n ++ [u.letter] ++ cs) =
      durationFrom (Int64.ofNat (total + n * u.seconds)) [] true cs := by
  have hdigits : ∀ c ∈ Nat.toDigits 10 n, c.isDigit = true := fun c hc =>
    Nat.isDigit_of_mem_toDigits (by decide) (by decide) hc
  rw [List.append_assoc, durationFrom_digits hdigits, List.nil_append, List.singleton_append, durationFrom, if_neg]
  · rw [parseI64_toDigits h, unitSeconds_letter, Int64.ofNat_add, Int64.ofNat_mul]
    rfl
  · rw [letter_not_isDigit]
    exact Bool.false_ne_true

theorem durationFrom_parts (parts : List (Nat × TimeUnit))
    (h : total + (parts.map fun p => p.1 * p.2.seconds).sum < 9223372036854775808) :
    durationFrom (Int64.ofNat total) [] true (parts.flatMap fun p => Nat.toDigits 10 p.1 ++ [p.2.letter]) =
      some (Int64.ofNat (total + (parts.map fun p => p.1 * p.2.seconds).sum)) := by
  induction parts generalizing total with
  | nil => simp [durationFrom]
  | cons p parts ih =>
    rw [List.map_cons, List.sum_cons] at h ⊢
    have hpos : 0 < p.2.seconds := by cases p.2 <;> decide
    have hle : p.1 ≤ p.1 * p.2.seconds := Nat.le_mul_of_pos_right _ hpos
    rw [List.flatMap_cons, durationFrom_part p.2 (by omega), ih (by omega), Nat.add_assoc]

/-- A length of time is read as its seconds. -/
theorem parseNftDuration_text (d : Duration) : parseNftDuration d.text = some (Int64.ofNat d.seconds) := by
  obtain ⟨parts, hne, hlt⟩ := d
  cases parts with
  | nil => exact (hne rfl).elim
  | cons p parts =>
    rw [List.map_cons, List.sum_cons] at hlt
    have hpos : 0 < p.2.seconds := by cases p.2 <;> decide
    have hle : p.1 ≤ p.1 * p.2.seconds := Nat.le_mul_of_pos_right _ hpos
    let rest : List Char := parts.flatMap fun p => Nat.toDigits 10 p.1 ++ [p.2.letter]
    have hpart : durationFrom (Int64.ofNat 0) [] false (Nat.toDigits 10 p.1 ++ [p.2.letter] ++ rest) = _ :=
      durationFrom_part p.2 (by omega)
    unfold parseNftDuration Duration.text Duration.seconds
    rw [List.map_cons, List.sum_cons, List.flatMap_cons, show (0 : Int64) = Int64.ofNat 0 from rfl, hpart,
      durationFrom_parts parts (by omega), Nat.zero_add]

theorem toInt_ofNat (d : Duration) : (Int64.ofNat d.seconds).toInt = d.seconds := Int64.toInt_ofNat_of_lt d.lt

end Durations

/-! ## Words -/

section Words

variable {c : Char} {now : DateTime} {e : Element}

/-- A character that ends no word, no part and no list. -/
def Printed (c : Char) : Prop := 33 ≤ c.toNat ∧ c.toNat < 125 ∧ c.toNat ≠ 44

theorem Printed.not_isWhitespace (h : Printed c) : Text.isWhitespace c = false :=
  Text.not_isWhitespace_of_ascii h.1 (by have := h.2.1; omega)

theorem Printed.ne (h : Printed c) : c ≠ ',' ∧ c ≠ '}' := by
  refine ⟨?_, ?_⟩
  · rintro rfl
    exact h.2.2 rfl
  · rintro rfl
    exact absurd h.2.1 (by decide)

theorem printed_of_isDigit (h : c.isDigit = true) : Printed c := by
  have hrange : 48 ≤ c.toNat ∧ c.toNat ≤ 57 := by simpa [Char.isDigit, UInt32.le_iff_toNat_le] using h
  unfold Printed
  omega

theorem printed_of_isAddrChar (h : isAddrChar c = true) : Printed c := by
  simp only [isAddrChar, isHexDigit, Bool.or_eq_true, Bool.and_eq_true, decide_eq_true_eq] at h
  rcases h with (((hdigit | ⟨hl, hr⟩) | ⟨hl, hr⟩) | rfl) | rfl
  · exact printed_of_isDigit hdigit
  · have hl' : 97 ≤ c.toNat := hl
    have hr' : c.toNat ≤ 102 := hr
    unfold Printed
    omega
  · have hl' : 65 ≤ c.toNat := hl
    have hr' : c.toNat ≤ 70 := hr
    unfold Printed
    omega
  · unfold Printed
    decide
  · unfold Printed
    decide

theorem printed_letter (u : TimeUnit) : Printed u.letter := by
  unfold Printed
  cases u with
  | week => decide
  | day => decide
  | hour => decide
  | minute => decide
  | second => decide

/-- What a word of an element is: the words that name a time are told by their `x`. -/
def Clean (t : List Char) : Prop := t ≠ [] ∧ ∀ c ∈ t, Printed c

theorem mem_text_of_duration {d : Duration} (h : c ∈ d.text) : c.isDigit = true ∨ ∃ u : TimeUnit, c = u.letter := by
  obtain ⟨p, -, hc⟩ := List.mem_flatMap.mp h
  cases List.mem_append.mp hc with
  | inl hdigit => exact .inl (Nat.isDigit_of_mem_toDigits (by decide) (by decide) hdigit)
  | inr hletter => exact .inr ⟨p.2, List.mem_singleton.mp hletter⟩

theorem clean_text (d : Duration) : Clean d.text := by
  refine ⟨?_, fun c hc => ?_⟩
  · intro hnil
    cases hparts : d.parts with
    | nil => exact d.ne_nil hparts
    | cons p parts =>
      unfold Duration.text at hnil
      rw [hparts, List.flatMap_cons] at hnil
      simp at hnil
  · obtain hdigit | ⟨u, rfl⟩ := mem_text_of_duration hc
    · exact printed_of_isDigit hdigit
    · exact printed_letter u

theorem mem_addrText (h : c ∈ e.addrText) : isAddrChar c = true ∨ c = '/' := by
  have haddr (hc : c ∈ e.addr.toList) : isAddrChar c = true := by
    have hreads := e.reads
    cases hip : parseIpAddr e.addr.toList with
    | none =>
      rw [hip] at hreads
      cases hreads
    | some ip => exact addrChar_of_parseIpAddr hip hc
  unfold Element.addrText at h
  cases List.mem_append.mp h with
  | inl hc => exact .inl (haddr hc)
  | inr hc =>
    cases hlen : e.len with
    | none =>
      rw [hlen] at hc
      cases hc
    | some len =>
      rw [hlen] at hc
      cases List.mem_cons.mp hc with
      | inl hslash => exact .inr hslash
      | inr hdigit =>
        have hd := Nat.isDigit_of_mem_toDigits (by decide) (by decide) hdigit
        exact .inl (by simp [isAddrChar, isHexDigit, hd])

theorem clean_addrText (e : Element) : Clean e.addrText := by
  refine ⟨fun hnil => ?_, fun c hc => ?_⟩
  · have haddr : e.addr.toList = [] := (List.append_eq_nil_iff.mp hnil).1
    have hreads := e.reads
    have hempty : parseIpAddr [] = none := by decide
    rw [haddr, hempty] at hreads
    cases hreads
  · obtain haddr | rfl := mem_addrText hc
    · exact printed_of_isAddrChar haddr
    · unfold Printed
      decide

theorem mem_suffix {word : String} {d : Option Duration} {t : List Char} (h : t ∈ Element.suffix word d) :
    t = word.toList ∨ ∃ d' : Duration, t = d'.text := by
  unfold Element.suffix at h
  cases d with
  | none => cases h
  | some d =>
    simp only [Option.map_some, Option.getD_some, List.mem_cons, List.not_mem_nil, or_false] at h
    exact h.imp_right fun ht => ⟨d, ht⟩

theorem clean_words {t : List Char} (h : t ∈ e.words) : Clean t := by
  have hword (w : List Char) (hw : w = "timeout".toList ∨ w = "expires".toList) : Clean w := by
    have htimeout : "timeout".toList = ['t', 'i', 'm', 'e', 'o', 'u', 't'] := String.toList_ofList
    have hexpires : "expires".toList = ['e', 'x', 'p', 'i', 'r', 'e', 's'] := String.toList_ofList
    have hall (w : List Char) (hw : (w.all fun c => decide (33 ≤ c.toNat ∧ c.toNat < 125 ∧ c.toNat ≠ 44)) = true) :
        ∀ c ∈ w, Printed c := by
      intro c hc
      have hchar := of_decide_eq_true (List.all_eq_true.mp hw c hc)
      exact hchar
    rw [htimeout, hexpires] at hw
    rcases hw with rfl | rfl
    · exact ⟨List.cons_ne_nil _ _, hall _ (by decide)⟩
    · exact ⟨List.cons_ne_nil _ _, hall _ (by decide)⟩
  have hsuffix (w : String) (hw : Clean w.toList) {d : Option Duration} (ht : t ∈ Element.suffix w d) : Clean t := by
    obtain rfl | ⟨d', rfl⟩ := mem_suffix ht
    · exact hw
    · exact clean_text d'
  unfold Element.words at h
  simp only [List.mem_append, List.mem_singleton] at h
  rcases h with (rfl | htimeout) | hexpires
  · exact clean_addrText e
  · exact hsuffix "timeout" (hword _ (.inl rfl)) htimeout
  · exact hsuffix "expires" (hword _ (.inr rfl)) hexpires

theorem splitWhitespace_text (s : Spaced) : Text.splitWhitespace s.text = s.element.words := by
  unfold Spaced.text Element.text
  rw [Text.splitWhitespace_append_blank fun c hc => s.blank c (List.mem_append_right _ hc),
    Text.splitWhitespace_blank_append fun c hc => s.blank c (List.mem_append_left _ hc),
    Text.splitWhitespace_intercalate]
  intro t ht
  have hclean := clean_words ht
  exact ⟨hclean.1, fun c hc => (hclean.2 c hc).not_isWhitespace⟩

/-- An element ends neither its part nor the list. -/
theorem ne_of_mem_text {s : Spaced} (h : c ∈ s.text) : c ≠ ',' ∧ c ≠ '}' := by
  have hblank (hc : Text.isWhitespace c = true) : c ≠ ',' ∧ c ≠ '}' := by
    refine ⟨?_, ?_⟩
    · rintro rfl
      exact absurd hc (by decide)
    · rintro rfl
      exact absurd hc (by decide)
  unfold Spaced.text at h
  simp only [List.mem_append] at h
  rcases h with (hfront | htext) | hback
  · exact hblank (s.blank c (List.mem_append_left _ hfront))
  · obtain rfl | ⟨t, ht, hc⟩ := mem_intercalate htext
    · exact hblank (by decide)
    · exact ((clean_words ht).2 c hc).ne
  · exact hblank (s.blank c (List.mem_append_right _ hback))

end Words

/-! ## Reading an element -/

section Reading

variable {now : DateTime} {e : Element} {parseNet : List Char → Option IpNet}

/-- What reading an element comes to. -/
def readAs (now : DateTime) (e : Element) : Outcome KernelElement := do
  let expiresAt ← expiry now (e.expires.map fun d => (d.seconds : Int))
  return ⟨e.net, expiresAt⟩

theorem expiresFrom_cons {t : List Char} {acc : Option DateTime} (h : 'x' ∉ t) (rest : List (List Char)) :
    expiresFrom now acc (t :: rest) = expiresFrom now acc rest := by
  have hne : t ≠ "expires".toList := by
    rintro rfl
    have hexpires : "expires".toList = ['e', 'x', 'p', 'i', 'r', 'e', 's'] := String.toList_ofList
    rw [hexpires] at h
    exact h (by decide)
  cases rest with
  | nil => rfl
  | cons d rest => rw [expiresFrom, if_neg hne]

theorem expiresFrom_words (e : Element) :
    expiresFrom now none e.words = expiry now (e.expires.map fun d => (d.seconds : Int)) := by
  -- a word without an `x` is not `expires`, so the search runs past it
  have haddr : 'x' ∉ e.addrText := by
    intro hx
    obtain h | h := mem_addrText hx
    · exact absurd h (by decide)
    · exact absurd h (by decide)
  have htext (d : Duration) : 'x' ∉ d.text := by
    intro hx
    obtain h | ⟨u, h⟩ := mem_text_of_duration hx
    · exact absurd h (by decide)
    · cases u with
      | week => exact absurd h (by decide)
      | day => exact absurd h (by decide)
      | hour => exact absurd h (by decide)
      | minute => exact absurd h (by decide)
      | second => exact absurd h (by decide)
  have htimeout : 'x' ∉ "timeout".toList := by
    have hlit : "timeout".toList = ['t', 'i', 'm', 'e', 'o', 'u', 't'] := String.toList_ofList
    rw [hlit]
    decide
  have hskip : expiresFrom now none e.words = expiresFrom now none (Element.suffix "expires" e.expires) := by
    unfold Element.words
    rw [List.append_assoc, List.singleton_append, expiresFrom_cons haddr]
    cases e.timeout with
    | none => rfl
    | some d =>
      show expiresFrom now none ("timeout".toList :: d.text :: _) = _
      rw [expiresFrom_cons htimeout, expiresFrom_cons (htext d)]
      rfl
  rw [hskip]
  cases e.expires with
  | none => rfl
  | some d =>
    show expiresFrom now none ["expires".toList, d.text] = expiry now (some (d.seconds : Int))
    rw [expiresFrom, if_pos rfl, parseNftDuration_text]
    dsimp only
    rw [toInt_ofNat]
    rfl

theorem readTarget_addrText (hnets : ReadsNets parseNet) (e : Element) :
    readTarget parseNet e.addrText = some e.net := by
  have hreads := e.reads
  unfold readTarget Element.addrText
  cases hip : parseIpAddr e.addr.toList with
  | none =>
    rw [hip] at hreads
    cases hreads
  | some ip =>
    rw [hip, Option.bind_some] at hreads
    cases hlen : e.len with
    | none =>
      rw [hlen] at hreads
      have hslash : '/' ∉ e.addr.toList := fun hmem => absurd (addrChar_of_parseIpAddr hip hmem) (by decide)
      rw [Option.map_none, Option.getD_none, List.append_nil, hnets.slash _ hslash]
      dsimp only
      unfold hostToNet
      rw [String.toList_ofList, hip]
      exact hreads
    | some len =>
      rw [hlen] at hreads
      rw [Option.map_some, Option.getD_some, hnets.reads _ len ip e.net hip hreads]

theorem parsePart_text (hnets : ReadsNets parseNet) (s : Spaced) :
    parsePart parseNet now s.text = (do
      let k ← readAs now s.element
      return some k) := by
  have hsplit : Text.splitWhitespace (Text.trimChars s.text) = s.element.words := by
    rw [Text.splitWhitespace_trimChars, splitWhitespace_text]
  have hne : Text.trimChars s.text ≠ [] := by
    intro hnil
    rw [hnil] at hsplit
    exact absurd hsplit.symm (List.cons_ne_nil _ _)
  have hwords : s.element.words = s.element.addrText :: (Element.suffix "timeout" s.element.timeout ++
      Element.suffix "expires" s.element.expires) := by
    unfold Element.words
    rw [List.append_assoc, List.singleton_append]
  unfold parsePart
  dsimp only
  rw [if_neg hne, hsplit, hwords]
  dsimp only
  rw [readTarget_addrText hnets, ← hwords]
  dsimp only
  rw [expiresFrom_words]
  unfold readAs
  simp

theorem asI64_json (d : Duration) : d.json.asI64 = some (d.seconds : Int) := by
  have hlt : d.seconds < 9223372036854775808 := d.lt
  have hsize : d.seconds < UInt64.size := by
    unfold UInt64.size
    omega
  have hnat : (UInt64.ofNat d.seconds).toNat = d.seconds := UInt64.toNat_ofNat_of_lt' hsize
  unfold Duration.json
  rw [Value.asI64_posInt (by omega), hnat]

/-- The fields of an element with a time. -/
theorem get_timed {v : Value} {timeout expires : Option Duration} :
    (Value.object ([("val", v)] ++ Element.field "timeout" timeout ++ Element.field "expires" expires)).get "val" = some v ∧
      (Value.object ([("val", v)] ++ Element.field "timeout" timeout ++ Element.field "expires" expires)).get "expires" =
        expires.map Duration.json := by
  refine ⟨by simp [Value.get, Value.lookup], ?_⟩
  cases expires with
  | none =>
    cases timeout with
    | none => simp [Value.get, Value.lookup, Element.field]
    | some d => simp [Value.get, Value.lookup, Element.field]
  | some d' =>
    cases timeout with
    | none => simp [Value.get, Value.lookup, Element.field]
    | some d => simp [Value.get, Value.lookup, Element.field]

/-- The length of a network fits into eight bits. -/
theorem len_le_of_ipNet {ip : IpAddr} {len : Nat} {net : IpNet} (h : ipNet ip len = some net) : len ≤ 128 := by
  unfold ipNet at h
  cases ip with
  | v4 a =>
    dsimp only at h
    split at h
    · omega
    · cases h
  | v6 a =>
    dsimp only at h
    split at h
    · omega
    · cases h

theorem parsePrefix_json {addr : String} {ip : IpAddr} {len : Nat} {net : IpNet}
    (hip : parseIpAddr addr.toList = some ip) (hnet : ipNet ip len = some net) :
    parsePrefix (.object [("addr", .string addr), ("len", .number (.posInt (UInt64.ofNat len)))]) = .ok net := by
  have hle := len_le_of_ipNet hnet
  have hsize : len < UInt64.size := by
    unfold UInt64.size
    omega
  have hlen : (UInt64.ofNat len).toUInt8.toNat = len := by
    rw [UInt64.toNat_toUInt8, UInt64.toNat_ofNat_of_lt' hsize]
    omega
  have haddr : Value.lookup [("addr", .string addr), ("len", .number (.posInt (UInt64.ofNat len)))] "addr" =
      some (.string addr) := Value.lookup_cons_self
  have hget : Value.lookup [("addr", .string addr), ("len", .number (.posInt (UInt64.ofNat len)))] "len" =
      some (.number (.posInt (UInt64.ofNat len))) := by
    rw [Value.lookup_cons_ne (by decide), Value.lookup_cons_self]
  have hstr : Value.asStr (.string addr) = some addr := rfl
  have hnum : Value.asU64 (.number (.posInt (UInt64.ofNat len))) = some (UInt64.ofNat len) := rfl
  unfold parsePrefix Value.get
  dsimp only
  rw [haddr, hget, Option.bind_some, Option.bind_some, hstr, hnum, Outcome.ofOption_some, Outcome.ok_bind,
    Outcome.ofOption_some, Outcome.ok_bind, hip, Outcome.ofOption_some, Outcome.ok_bind, hlen, hnet,
    Outcome.ofOption_some]

/-- The address of an element, or its prefix, is its network. -/
theorem val_cases (e : Element) : (e.val = .string e.addr ∧ hostToNet e.addr = .ok e.net) ∨
    ∃ p, e.val = .object [("prefix", p)] ∧ parsePrefix p = .ok e.net := by
  have hreads := e.reads
  unfold Element.val
  cases hip : parseIpAddr e.addr.toList with
  | none =>
    rw [hip] at hreads
    cases hreads
  | some ip =>
    rw [hip, Option.bind_some] at hreads
    cases hlen : e.len with
    | none =>
      rw [hlen] at hreads
      refine .inl ⟨rfl, ?_⟩
      unfold hostToNet
      rw [hip]
      exact congrArg Outcome.ok (Option.some.inj hreads)
    | some len =>
      rw [hlen] at hreads
      exact .inr ⟨_, rfl, parsePrefix_json hip hreads⟩

theorem parseElem_json (e : Element) : parseElem now e.json = readAs now e := by
  have hkey (v : Value) : Value.lookup [("prefix", v)] "prefix" = some v := Value.lookup_cons_self
  unfold Element.json
  split
  · next hplain =>
    unfold readAs
    rw [hplain.2]
    obtain ⟨hval, hread⟩ | ⟨p, hval, hread⟩ := val_cases e
    · rw [hval]
      show (hostToNet e.addr >>= fun target => _) = _
      rw [hread]
      rfl
    · rw [hval]
      unfold parseElem
      dsimp only
      rw [hkey]
      show (parsePrefix p >>= fun target => _) = _
      rw [hread]
      rfl
  · have hval : parseVal e.val = .ok e.net := by
      obtain ⟨hval, hread⟩ | ⟨p, hval, hread⟩ := val_cases e
      · rw [hval]
        exact hread
      · rw [hval]
        unfold parseVal
        dsimp only
        rw [hkey]
        exact hread
    obtain ⟨hgetval, hgetexp⟩ := @get_timed e.val e.timeout e.expires
    have hsecs : (e.expires.map Duration.json).bind Value.asI64 = e.expires.map fun d => (d.seconds : Int) := by
      cases e.expires with
      | none => rfl
      | some d => rw [Option.map_some, Option.bind_some, asI64_json, Option.map_some]
    have hnone (v : Value) : Value.lookup [("elem", v)] "prefix" = none := by
      rw [Value.lookup_cons_ne (by decide)]
      rfl
    unfold parseElem
    dsimp only
    rw [hnone, Value.lookup_cons_self]
    dsimp only
    rw [hgetval, hgetexp, hsecs]
    show (parseVal e.val >>= fun target => _) = _
    rw [hval]
    rfl

end Reading

/-! ## Reading a set -/

section Agree

variable {now : DateTime} {e : Element} {es : List Element} {parseNet : List Char → Option IpNet}

/-- What is left of the element's timeout ends at a time that can be represented. -/
def Element.Ends (now : DateTime) (e : Element) : Prop := ∀ d, e.expires = some d → InRange now d.seconds

/-- Less than 10 ^ 9 seconds can be added to every time but those of the last 31 years. -/
theorem Element.ends_of_lt (hmin : MIN_UTC ≤ now) (hmax : later now 1000000000 ≤ MAX_UTC)
    (h : ∀ d, e.expires = some d → d.seconds < 1000000000) : e.Ends now := by
  intro d hd
  have hlt := h d hd
  have hfirst : (MIN_UTC : Int) ≤ now := hmin
  have hlast : (now : Int) + 1000000000 * NANOS ≤ MAX_UTC := hmax
  have hpos : (0 : Int) ≤ d.seconds * NANOS := by
    unfold NANOS
    omega
  have hless : (d.seconds : Int) * NANOS ≤ 1000000000 * NANOS := by
    unfold NANOS
    omega
  unfold InRange MAX_SECONDS
  exact ⟨by omega, by omega, Int.le_trans hfirst (Int.le_add_of_nonneg_right hpos),
    Int.le_trans (Int.add_le_add_left hless now) hlast⟩

def readAll (now : DateTime) : List Element → Outcome (List KernelElement)
  | [] => .ok []
  | e :: es => do
    let k ← readAs now e
    let ks ← readAll now es
    return k :: ks

theorem readAs_ok (h : e.Ends now) : readAs now e = .ok (e.kernel now) := by
  unfold readAs Element.kernel
  cases hexp : e.expires with
  | none => rfl
  | some d =>
    rw [Option.map_some, expiry_some, if_pos (h d hexp)]
    rfl

theorem readAs_panic (h : ¬ e.Ends now) : readAs now e = .panic := by
  unfold readAs
  cases hexp : e.expires with
  | none =>
    refine (h fun d hd => ?_).elim
    rw [hexp] at hd
    cases hd
  | some d =>
    have hrange : ¬ InRange now d.seconds := by
      intro hin
      refine h fun d' hd' => ?_
      rw [hexp] at hd'
      cases hd'
      exact hin
    rw [Option.map_some, expiry_some, if_neg hrange]
    rfl

/-- All elements are read as they are when all their times can be represented, and otherwise none is. -/
theorem readAll_ok_iff : readAll now es = .ok (es.map (Element.kernel now)) ↔ ∀ e ∈ es, e.Ends now := by
  induction es with
  | nil => exact ⟨fun _ _ he => absurd he List.not_mem_nil, fun _ => rfl⟩
  | cons e es ih =>
    unfold readAll
    rw [List.forall_mem_cons, ← ih]
    by_cases hends : e.Ends now
    · rw [readAs_ok hends, Outcome.ok_bind, List.map_cons]
      cases hrest : readAll now es with
      | ok ks =>
        show Outcome.ok (e.kernel now :: ks) = _ ↔ _
        simp [hends]
      | err x => exact ⟨by rintro ⟨⟩, by rintro ⟨-, ⟨⟩⟩⟩
      | panic => exact ⟨by rintro ⟨⟩, by rintro ⟨-, ⟨⟩⟩⟩
    · rw [readAs_panic hends]
      exact ⟨by rintro ⟨⟩, fun h => (hends h.1).elim⟩

theorem parseElems_json (es : List Element) : parseElems now (es.map Element.json) = readAll now es := by
  induction es with
  | nil => rfl
  | cons e es ih =>
    rw [List.map_cons]
    unfold parseElems readAll
    rw [parseElem_json, ih]

theorem parseParts_text (hnets : ReadsNets parseNet) (es : List Spaced) :
    parseParts parseNet now (es.map Spaced.text) = readAll now (es.map Spaced.element) := by
  induction es with
  | nil => rfl
  | cons s es ih =>
    rw [List.map_cons, List.map_cons]
    unfold parseParts readAll
    rw [parsePart_text hnets, ih]
    simp

/-- The document has the elements and no others. -/
theorem parseDocument_document (l : JsonLayout) (es : List Element) :
    parseDocument now (l.document es) = readAll now es := by
  have hother (items : List Value) (h : ∀ item ∈ items, item.get "set" = none) :
      (items.flatMap fun item => (itemElems item).getD []) = [] := by
    refine List.flatMap_eq_nil_iff.mpr fun item hitem => ?_
    unfold itemElems
    rw [h item hitem]
    rfl
  have hset : (itemElems (.object [("set", .object (l.fields ++
      if es = [] then [] else [("elem", .array (es.map Element.json))]))])).getD [] = es.map Element.json := by
    unfold itemElems
    have hget (fields : List (String × Value)) :
        (Value.object [("set", .object fields)]).get "set" = some (.object fields) := Value.lookup_cons_self
    rw [hget, Option.bind_some]
    unfold Value.get
    dsimp only
    rw [Value.lookup_append l.no_elem]
    split
    · next hnil =>
      rw [hnil]
      rfl
    · rw [Value.lookup_cons_self]
      rfl
  have harr : parseDocument now (l.document es) = parseItems now (l.before ++ [.object [("set", .object (l.fields ++
      if es = [] then [] else [("elem", .array (es.map Element.json))]))]] ++ l.after) := by
    unfold parseDocument JsonLayout.document Value.get
    dsimp only
    rw [Value.lookup_cons_self]
    rfl
  rw [harr, parseItems_eq, List.flatMap_append, List.flatMap_append, List.flatMap_singleton, hset,
    hother l.before fun item hitem => l.no_set item (List.mem_append_left _ hitem),
    hother l.after fun item hitem => l.no_set item (List.mem_append_right _ hitem), List.nil_append, List.append_nil,
    parseElems_json]

theorem parseSetElementsText_text (hnets : ReadsNets parseNet) (l : TextLayout) (es : List Spaced) :
    parseSetElementsText parseNet (l.text es) now = readAll now (es.map Spaced.element) := by
  have hword : "elements".toList = ['e', 'l', 'e', 'm', 'e', 'n', 't', 's'] := String.toList_ofList
  have hopen : "elements = \x7b".toList = "elements".toList ++ [' ', '=', ' ', '{'] := by
    rw [hword]
    exact String.toList_ofList
  have htoList : (l.text es).toList = l.header ++ ((if es = [] then []
      else "elements = \x7b".toList ++ [','].intercalate (es.map Spaced.text) ++ ['}']) ++ l.footer) :=
    String.toList_ofList
  unfold parseSetElementsText
  rw [htoList]
  by_cases hes : es = []
  · rw [if_pos hes, List.nil_append, Text.fromWord_of_not_infix l.unnamed, hes]
    rfl
  · have hheader : ¬ "elements".toList <:+: l.header := fun h =>
      l.unnamed (h.trans (List.prefix_append _ _).isInfix)
    have hlast : "elements".toList = ['e', 'l', 'e', 'm', 'e', 'n', 't'] ++ ['s'] := hword
    have hbrace : '{' ∉ "elements".toList ++ [' ', '=', ' '] := by
      rw [hword]
      decide
    let inside : List Char := [','].intercalate (es.map Spaced.text)
    -- no element prints a comma or a brace, so the pieces are the elements
    have hend : '}' ∉ inside := by
      intro hmem
      obtain hcomma | ⟨t, ht, hc⟩ := mem_intercalate hmem
      · exact absurd hcomma (by decide)
      · obtain ⟨s, -, rfl⟩ := List.mem_map.mp ht
        exact (ne_of_mem_text hc).2 rfl
    have hparts : inside.splitOn ',' = es.map Spaced.text := by
      refine List.splitOn_intercalate ',' (fun t ht hc => ?_) (by simpa using hes)
      obtain ⟨s, -, rfl⟩ := List.mem_map.mp ht
      exact (ne_of_mem_text hc).1 rfl
    have htext : (if es = [] then [] else "elements = \x7b".toList ++ inside ++ ['}']) ++ l.footer =
        "elements".toList ++ ([' ', '=', ' '] ++ '{' :: (inside ++ '}' :: l.footer)) := by
      rw [if_neg hes, hopen]
      simp only [List.append_assoc, List.cons_append, List.nil_append]
    have hfound : Text.fromWord "elements".toList (l.header ++ ("elements".toList ++ ([' ', '=', ' '] ++
        '{' :: (inside ++ '}' :: l.footer)))) = _ := Text.fromWord_append hlast (by decide) hheader
    rw [htext, hfound]
    dsimp only
    rw [← List.append_assoc, Text.splitOnce_append hbrace]
    dsimp only
    rw [Text.splitOnce_append hend]
    show parseParts parseNet now (inside.splitOn ',') = _
    rw [hparts, parseParts_text hnets]

/-- Both readers come to the same, and see the elements as they are when every time can be represented. -/
theorem readers_agree_iff (hnets : ReadsNets parseNet) {fromStr : String → Option Value} {json : String}
    (j : JsonLayout) (t : TextLayout) (es : List Spaced)
    (hjson : fromStr json = some (j.document (es.map Spaced.element))) :
    (parseSetElements fromStr json now = parseSetElementsText parseNet (t.text es) now) ∧
      ((parseSetElements fromStr json now = .ok (es.map fun s => s.element.kernel now) ∧
          parseSetElementsText parseNet (t.text es) now = .ok (es.map fun s => s.element.kernel now)) ↔
        ∀ s ∈ es, s.element.Ends now) := by
  have hleft : parseSetElements fromStr json now = readAll now (es.map Spaced.element) := by
    unfold parseSetElements
    rw [hjson]
    exact parseDocument_document j _
  have hright := @parseSetElementsText_text now parseNet hnets t es
  have hiff := @readAll_ok_iff now (es.map Spaced.element)
  rw [List.map_map, List.forall_mem_map] at hiff
  rw [hleft, hright, and_self]
  exact ⟨rfl, hiff⟩

end Agree

/-- A reader of networks in that notation. -/
def readNet (cs : List Char) : Option IpNet :=
  match Text.splitOnce '/' cs with
  | some (addr, len) =>
    if len.all Char.isDigit then
      (parseIpAddr addr).bind fun ip => ipNet ip (len.foldl (fun n c => n * 10 + (c.toNat - '0'.toNat)) 0)
    else none
  | none => none

theorem readsNets_readNet : ReadsNets readNet := by
  refine ⟨fun addr len ip net hip hnet => ?_, fun cs hslash => ?_⟩
  · have haddr : '/' ∉ addr := fun hmem => absurd (addrChar_of_parseIpAddr hip hmem) (by decide)
    have hdigits : (Nat.toDigits 10 len).all Char.isDigit = true :=
      List.all_eq_true.mpr fun c hc => Nat.isDigit_of_mem_toDigits (by decide) (by decide) hc
    unfold readNet
    rw [Text.splitOnce_append haddr]
    dsimp only
    rw [if_pos hdigits, hip, Option.bind_some, Text.value_toDigits, hnet]
  · unfold readNet
    rw [Text.splitOnce_of_not_mem hslash]

theorem len24_le : 24 ≤ 32 := by decide

def prefix24 : IpNet := .v4 ⟨0xcb007100#32, 24, len24_le⟩

theorem reads_prefix24 : ((parseIpAddr "203.0.113.0".toList).bind fun ip => netOf ip (some 24)) = some prefix24 := by
  have h : "203.0.113.0".toList = ['2', '0', '3', '.', '0', '.', '1', '1', '3', '.', '0'] := String.toList_ofList
  rw [h]
  decide

theorem reads_host6 : ((parseIpAddr "2001:db8::9".toList).bind fun ip => netOf ip none) =
    some (hostNet (.v6 0x20010db8000000000000000000000009#128)) := by
  have h : "2001:db8::9".toList = ['2', '0', '0', '1', ':', 'd', 'b', '8', ':', ':', '9'] := String.toList_ofList
  rw [h]
  decide

theorem reads_host4 : ((parseIpAddr "192.0.2.9".toList).bind fun ip => netOf ip none) =
    some (hostNet (.v4 0xc0000209#32)) := by
  have h : "192.0.2.9".toList = ['1', '9', '2', '.', '0', '.', '2', '.', '9'] := String.toList_ofList
  rw [h]
  decide

def hour : Duration := ⟨[(1, .hour)], by decide, by decide⟩

def minutes : Duration := ⟨[(58, .minute), (20, .second)], by decide, by decide⟩

/-- Eight digits of days. -/
def ages : Duration := ⟨[(99999999, .day)], by decide, by decide⟩

theorem blank_of_all {cs : List Char} (h : cs.all Text.isWhitespace = true) : ∀ c ∈ cs, Text.isWhitespace c = true :=
  List.all_eq_true.mp h

def prefixElement : Spaced :=
  ⟨[' '], ⟨"203.0.113.0", some 24, prefix24, reads_prefix24, none, none⟩, [], blank_of_all rfl⟩

def timedElement : Spaced :=
  ⟨['\n', ' '], ⟨"2001:db8::9", none, _, reads_host6, some hour, some minutes⟩, [' '], blank_of_all rfl⟩

def farElement : Spaced :=
  ⟨[' '], ⟨"192.0.2.9", none, _, reads_host4, some ages, some ages⟩, [' '], blank_of_all rfl⟩

def jsonLayout : JsonLayout := ⟨[], [("name", .string "allow4")], [], by simp, by simp [Value.lookup]⟩

theorem unnamed_layout : ¬ "elements".toList <:+: "set allow4 \x7b\n\t".toList ++ "\n\x7d".toList := by
  have hword : "elements".toList = ['e', 'l', 'e', 'm', 'e', 'n', 't', 's'] := String.toList_ofList
  have hheader : "set allow4 \x7b\n\t".toList =
      ['s', 'e', 't', ' ', 'a', 'l', 'l', 'o', 'w', '4', ' ', '\x7b', '\n', '\t'] := String.toList_ofList
  have hfooter : "\n\x7d".toList = ['\n', '\x7d'] := String.toList_ofList
  rw [hword, hheader, hfooter]
  intro h
  have hmem : 'm' ∈ _ := h.subset (show 'm' ∈ ['e', 'l', 'e', 'm', 'e', 'n', 't', 's'] by decide)
  exact absurd hmem (by decide)

def textLayout : TextLayout := ⟨_, _, unnamed_layout⟩

def listingJson : String :=
  "\x7b\"nftables\": [\x7b\"set\": \x7b\"name\": \"allow4\", \"elem\": [" ++
    "\x7b\"prefix\": \x7b\"addr\": \"203.0.113.0\", \"len\": 24\x7d\x7d, " ++
    "\x7b\"elem\": \x7b\"val\": \"2001:db8::9\", \"timeout\": 3600, \"expires\": 3500\x7d\x7d]\x7d\x7d]\x7d"

def listingOf (json : String) : Option Value :=
  if json = listingJson then some (jsonLayout.document [prefixElement.element, timedElement.element]) else none

theorem readers_agree_listing :
    (parseSetElements listingOf listingJson 0 = .ok [⟨prefix24, none⟩,
        ⟨hostNet (.v6 0x20010db8000000000000000000000009#128), some (3500 * NANOS)⟩]) ∧
      parseSetElementsText readNet (textLayout.text [prefixElement, timedElement]) 0 =
        parseSetElements listingOf listingJson 0 := by
  have hjson : listingOf listingJson =
      some (jsonLayout.document ([prefixElement, timedElement].map Spaced.element)) := if_pos rfl
  have hends : ∀ s ∈ [prefixElement, timedElement], s.element.Ends 0 := by
    intro s hs
    simp only [List.mem_cons, List.not_mem_nil, or_false] at hs
    rcases hs with rfl | rfl
    · intro d hd
      cases hd
    · intro d hd
      cases hd
      decide
  obtain ⟨hsame, hread⟩ := @readers_agree_iff 0 readNet readsNets_readNet listingOf listingJson jsonLayout
    textLayout _ hjson
  exact ⟨(hread.mpr hends).1, hsame.symm⟩

/-- A timeout of so many days ends at no time, and both readers panic. -/
theorem far_timeout_panics : parseDocument 0 (jsonLayout.document [farElement.element]) = .panic ∧
    parseSetElementsText readNet (textLayout.text [farElement]) 0 = .panic := by
  have hfar : ¬ farElement.element.Ends 0 := fun h => absurd (h ages rfl) (by decide)
  have hpanic : readAll 0 [farElement.element] = .panic := by
    unfold readAll
    rw [readAs_panic hfar]
    rfl
  rw [parseDocument_document, parseSetElementsText_text readsNets_readNet]
  exact ⟨hpanic, hpanic⟩

end Ipgate.Parse
