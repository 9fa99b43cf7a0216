-- SUMMARY: IP addresses as text: reading gives back what printing has written.
import Ipgate.Lib.Ip
import Ipgate.Lib.Text

/-!
# Addresses as text

`Ipv4Addr::from_str` and `Ipv6Addr::from_str` against their printed forms.
-/

namespace Net

/-! ## Dotted notation -/

section Dotted

variable {n : Nat}

/-- No leading zero is printed. -/
theorem head_toDigits (h : (Nat.toDigits 10 n).head? = some '0') : n = 0 := by
  induction n using Nat.strong_induction_on with
  | h n ih =>
    by_cases hn : n < 10
    · have hsmall : ∀ m < 10, (Nat.toDigits 10 m).head? = some '0' → m = 0 := by decide
      exact hsmall n hn h
    · have hle : 10 ≤ n := by omega
      rw [Nat.toDigits_of_base_le (by decide) hle, List.head?_append_of_ne_nil _ Nat.toDigits_ne_nil] at h
      have hdiv := ih (n / 10) (by omega) h
      omega

theorem parseOctet_toDigits (h : n < 256) : parseOctet (Nat.toDigits 10 n) = some n := by
  have hlen : (Nat.toDigits 10 n).length ≤ 3 := (Nat.length_toDigits_le_iff (by decide) (by decide)).mpr (by omega)
  have hdigits : (Nat.toDigits 10 n).all Char.isDigit = true :=
    List.all_eq_true.mpr fun c hc => Nat.isDigit_of_mem_toDigits (by decide) (by decide) hc
  have hzero : (Nat.toDigits 10 n).head? = some '0' → (Nat.toDigits 10 n).length = 1 := by
    intro hhead
    rw [head_toDigits hhead]
    rfl
  unfold parseOctet
  dsimp only
  rw [Text.value_toDigits, if_pos ⟨Nat.toDigits_ne_nil, hlen, hdigits, hzero, by omega⟩]

/-- The four numbers of an address are printed with dots between them. -/
theorem ipv4String_toList (a : BitVec 32) : (ipv4String a).toList =
    ['.'].intercalate ([3, 2, 1, 0].map fun i => Nat.toDigits 10 (a.toNat / 256 ^ i % 256)) := by
  have hdot : ".".toList = ['.'] := String.toList_ofList
  unfold ipv4String
  simp [hdot, List.intercalate, -String.reduceToList]

/-- The characters of an address are digits and dots, and there is a dot. -/
theorem mem_ipv4String {a : BitVec 32} {c : Char} (h : c ∈ (ipv4String a).toList) : c.isDigit = true ∨ c = '.' := by
  have hdigit (i : Nat) (hc : c ∈ Nat.toDigits 10 (a.toNat / 256 ^ i % 256)) : c.isDigit = true :=
    Nat.isDigit_of_mem_toDigits (by decide) (by decide) hc
  rw [ipv4String_toList] at h
  simp only [List.map_cons, List.map_nil, List.intercalate, List.intersperse_cons_cons, List.intersperse_singleton,
    List.flatten_cons, List.flatten_nil, List.mem_append, List.mem_singleton, List.append_nil] at h
  rcases h with h | h | h | h | h | h | h
  · exact .inl (hdigit _ h)
  · exact .inr h
  · exact .inl (hdigit _ h)
  · exact .inr h
  · exact .inl (hdigit _ h)
  · exact .inr h
  · exact .inl (hdigit _ h)

theorem dot_mem_ipv4String (a : BitVec 32) : '.' ∈ (ipv4String a).toList := by
  rw [ipv4String_toList]
  simp [List.intercalate]

theorem parseIpv4_ipv4String (a : BitVec 32) : parseIpv4 (ipv4String a) = some a := by
  have hdigits : ∀ l ∈ [3, 2, 1, 0].map fun i => Nat.toDigits 10 (a.toNat / 256 ^ i % 256), '.' ∉ l := by
    intro l hl hdot
    obtain ⟨i, -, rfl⟩ := List.mem_map.mp hl
    cases Nat.isDigit_of_mem_toDigits (by decide) (by decide) hdot
  have hread (i : Nat) : parseOctet (Nat.toDigits 10 (a.toNat / 256 ^ i % 256)) = some (a.toNat / 256 ^ i % 256) :=
    parseOctet_toDigits (Nat.mod_lt _ (by decide))
  have ha := a.isLt
  unfold parseIpv4
  rw [ipv4String_toList, List.splitOn_intercalate '.' hdigits (by simp)]
  simp only [List.map_cons, List.map_nil, hread]
  congr 1
  apply BitVec.eq_of_toNat_eq
  rw [BitVec.toNat_ofNat]
  omega

end Dotted

/-! ## Colon notation -/

def isHexDigit (c : Char) : Bool := c.isDigit || ('a' ≤ c && c ≤ 'f') || ('A' ≤ c && c ≤ 'F')

def hexValue (c : Char) : Nat :=
  if c.isDigit then c.toNat - '0'.toNat else if 'a' ≤ c then c.toNat - 'a'.toNat + 10 else c.toNat - 'A'.toNat + 10

/-- A group of one to four hexadecimal digits. -/
def parseGroup (cs : List Char) : Option Nat :=
  if cs ≠ [] ∧ cs.length ≤ 4 ∧ cs.all isHexDigit then some (cs.foldl (fun n c => n * 16 + hexValue c) 0) else none

def parseHead : List (List Char) → Option (List Nat)
  | [] => some []
  | g :: rest =>
    match parseGroup g with
    | some n => (parseHead rest).map (n :: ·)
    | none => none

/-- Groups, the last two of which may be written in dotted notation. -/
def parseGroups : List (List Char) → Option (List Nat)
  | [] => some []
  | [last] =>
    match parseGroup last with
    | some n => some [n]
    | none => (parseIpv4 (String.ofList last)).map fun a => [a.toNat / 65536, a.toNat % 65536]
  | g :: rest =>
    match parseGroup g with
    | some n => (parseGroups rest).map (n :: ·)
    | none => none

/-- The text before and behind the first two colons in a row. -/
def splitDouble : List Char → Option (List Char × List Char)
  | [] => none
  | ':' :: ':' :: cs => some ([], cs)
  | c :: cs => (splitDouble cs).map fun (a, b) => (c :: a, b)

/-- The groups of a part of an address; there are none in an empty one. -/
def pieces (cs : List Char) : List (List Char) := if cs = [] then [] else cs.splitOn ':'

/-- The address with the segments, the most significant first. -/
def ofSegments (segs : List Nat) : BitVec 128 := BitVec.ofNat 128 (segs.foldl (fun n s => n * 65536 + s) 0)

/-- Eight groups, or fewer with two colons in place of the zeros that are missing. In front of these
there is no dotted notation, and one group at least is missing. -/
def parseIpv6 (cs : List Char) : Option (BitVec 128) :=
  match splitDouble cs with
  | some (front, back) =>
    match parseHead (pieces front), parseGroups (pieces back) with
    | some head, some tail =>
      if head.length + tail.length ≤ 7 then
        some (ofSegments (head ++ List.replicate (8 - head.length - tail.length) 0 ++ tail))
      else none
    | _, _ => none
  | none =>
    match parseGroups (cs.splitOn ':') with
    | some segs => if segs.length = 8 then some (ofSegments segs) else none
    | none => none

/-- An address of either family. -/
def parseIpAddr (cs : List Char) : Option IpAddr :=
  match parseIpv4 (String.ofList cs) with
  | some a => some (.v4 a)
  | none => (parseIpv6 cs).map IpAddr.v6

/-! ## The characters of an address -/

section Characters

variable {c d : Char} {cs : List Char}

/-- The characters that may occur in an address. -/
def isAddrChar (c : Char) : Bool := isHexDigit c || c = ':' || c = '.'

theorem mem_intercalate {ls : List (List Char)} (h : c ∈ [d].intercalate ls) : c = d ∨ ∃ l ∈ ls, c ∈ l := by
  induction ls with
  | nil => cases h
  | cons l ls ih =>
    cases ls with
    | nil =>
      rw [List.intercalate_singleton] at h
      exact .inr ⟨l, List.mem_cons_self .., h⟩
    | cons l' ls =>
      rw [List.intercalate_cons_cons, List.mem_append, List.mem_append, List.mem_singleton] at h
      rcases h with (hl | hd) | hrest
      · exact .inr ⟨l, List.mem_cons_self .., hl⟩
      · exact .inl hd
      · exact (ih hrest).imp_right fun ⟨l₁, hl₁, hc⟩ => ⟨l₁, List.mem_cons_of_mem l hl₁, hc⟩

/-- A text has the separator and what is in its pieces. -/
theorem mem_splitOn_of_mem (h : c ∈ cs) : c = d ∨ ∃ l ∈ cs.splitOn d, c ∈ l := by
  have hjoin : [d].intercalate (cs.splitOn d) = cs := List.intercalate_splitOn d
  rw [← hjoin] at h
  exact mem_intercalate h

theorem addrChar_of_parseIpv4 {s : String} {a : BitVec 32} (h : parseIpv4 s = some a) (hc : c ∈ s.toList) :
    isAddrChar c = true := by
  have hoctet (l : List Char) (n : Nat) (hl : parseOctet l = some n) (hmem : c ∈ l) : isAddrChar c = true := by
    unfold parseOctet at hl
    dsimp only at hl
    split at hl
    · next hcond =>
      have hdigit := List.all_eq_true.mp hcond.2.2.1 c hmem
      simp [isAddrChar, isHexDigit, hdigit]
    · cases hl
  have hpieces : ∀ l ∈ s.toList.splitOn '.', ∃ n, parseOctet l = some n := by
    unfold parseIpv4 at h
    split at h
    · next hlist =>
      intro l hl
      have hsome : parseOctet l ∈ (s.toList.splitOn '.').map parseOctet := List.mem_map_of_mem hl
      rw [hlist] at hsome
      simp only [List.mem_cons, List.not_mem_nil, or_false] at hsome
      rcases hsome with heq | heq | heq | heq
      · exact ⟨_, heq⟩
      · exact ⟨_, heq⟩
      · exact ⟨_, heq⟩
      · exact ⟨_, heq⟩
    · cases h
  cases mem_splitOn_of_mem (d := '.') hc with
  | inl hdot => rw [hdot]; decide
  | inr hin =>
    obtain ⟨l, hl, hmem⟩ := hin
    obtain ⟨n, hn⟩ := hpieces l hl
    exact hoctet l n hn hmem

theorem addrChar_of_parseGroup {n : Nat} (h : parseGroup cs = some n) (hc : c ∈ cs) : isAddrChar c = true := by
  unfold parseGroup at h
  split at h
  · next hcond => simp [isAddrChar, List.all_eq_true.mp hcond.2.2 c hc]
  · cases h

theorem addrChar_of_parseGroups {ls : List (List Char)} {segs : List Nat} (h : parseGroups ls = some segs)
    {l : List Char} (hl : l ∈ ls) (hc : c ∈ l) : isAddrChar c = true := by
  induction ls generalizing segs with
  | nil => cases hl
  | cons g rest ih =>
    cases rest with
    | nil =>
      obtain rfl := List.mem_singleton.mp hl
      unfold parseGroups at h
      cases hgroup : parseGroup l with
      | some n => exact addrChar_of_parseGroup hgroup hc
      | none =>
        rw [hgroup] at h
        obtain ⟨a, ha, -⟩ := Option.map_eq_some_iff.mp h
        exact addrChar_of_parseIpv4 ha (by rwa [String.toList_ofList])
    | cons g' rest =>
      unfold parseGroups at h
      cases hgroup : parseGroup g with
      | none =>
        rw [hgroup] at h
        cases h
      | some n =>
        rw [hgroup] at h
        obtain ⟨segs', hsegs', -⟩ := Option.map_eq_some_iff.mp h
        cases List.mem_cons.mp hl with
        | inl heq => exact addrChar_of_parseGroup hgroup (heq ▸ hc)
        | inr hrest => exact ih hsegs' hrest

theorem splitDouble_eq_some {front back : List Char} (h : splitDouble cs = some (front, back)) :
    cs = front ++ ':' :: ':' :: back := by
  induction cs using splitDouble.induct generalizing front with
  | case1 => cases h
  | case2 cs =>
    unfold splitDouble at h
    cases h
    rfl
  | case3 c cs hne ih =>
    rw [splitDouble] at h
    · obtain ⟨⟨f, b⟩, hrec, heq⟩ := Option.map_eq_some_iff.mp h
      cases heq
      rw [ih hrec, List.cons_append]
    · exact hne

theorem addrChar_of_parseHead {ls : List (List Char)} {segs : List Nat} (h : parseHead ls = some segs)
    {l : List Char} (hl : l ∈ ls) (hc : c ∈ l) : isAddrChar c = true := by
  induction ls generalizing segs with
  | nil => cases hl
  | cons g rest ih =>
    unfold parseHead at h
    cases hgroup : parseGroup g with
    | none =>
      rw [hgroup] at h
      cases h
    | some n =>
      rw [hgroup] at h
      obtain ⟨segs', hsegs', -⟩ := Option.map_eq_some_iff.mp h
      cases List.mem_cons.mp hl with
      | inl heq => exact addrChar_of_parseGroup hgroup (heq ▸ hc)
      | inr hrest => exact ih hsegs' hrest

theorem addrChar_of_splitOn (hpieces : ∀ l ∈ cs.splitOn ':', ∀ c ∈ l, isAddrChar c = true) (hc : c ∈ cs) :
    isAddrChar c = true := by
  cases mem_splitOn_of_mem (d := ':') hc with
  | inl hcolon => rw [hcolon]; decide
  | inr hin =>
    obtain ⟨l, hl, hmem⟩ := hin
    exact hpieces l hl c hmem

theorem addrChar_of_pieces (hpieces : ∀ l ∈ pieces cs, ∀ c ∈ l, isAddrChar c = true) (hc : c ∈ cs) :
    isAddrChar c = true := by
  unfold pieces at hpieces
  split at hpieces
  · next hnil =>
    rw [hnil] at hc
    cases hc
  · exact addrChar_of_splitOn hpieces hc

theorem addrChar_of_parseIpv6 {a : BitVec 128} (h : parseIpv6 cs = some a) (hc : c ∈ cs) : isAddrChar c = true := by
  unfold parseIpv6 at h
  split at h
  · next front back hsplit =>
    split at h
    · next head tail hhead htail =>
      rw [splitDouble_eq_some hsplit] at hc
      simp only [List.mem_append, List.mem_cons] at hc
      rcases hc with hfront | hcolon | hcolon | hback
      · exact addrChar_of_pieces (fun l hl d hd => addrChar_of_parseHead hhead hl hd) hfront
      · rw [hcolon]; decide
      · rw [hcolon]; decide
      · exact addrChar_of_pieces (fun l hl d hd => addrChar_of_parseGroups htail hl hd) hback
    · cases h
  · split at h
    · next segs hsegs => exact addrChar_of_splitOn (fun l hl d hd => addrChar_of_parseGroups hsegs hl hd) hc
    · cases h

/-- An address has no other characters, whichever way it is written. -/
theorem addrChar_of_parseIpAddr {ip : IpAddr} (h : parseIpAddr cs = some ip) (hc : c ∈ cs) : isAddrChar c = true := by
  unfold parseIpAddr at h
  split at h
  · next a ha => exact addrChar_of_parseIpv4 ha (by rwa [String.toList_ofList])
  · obtain ⟨a, ha, -⟩ := Option.map_eq_some_iff.mp h
    exact addrChar_of_parseIpv6 ha hc

end Characters

end Net
