-- SUMMARY: Functions of Go's net and strings packages: host and port, and IP addresses read from text and printed.
import Ipgate.Lib.Text

/-!
# Go's `net`

`SplitHostPort`, `ParseIP` and `IP.String`, on lists of characters. An IP address is
its 16 bytes; an IPv4 address stands behind a fixed prefix.
-/

namespace GoNet

/-! ## Host and port -/

/-- `SplitHostPort`. The port is behind the last colon; a host with colons stands in square
brackets. -/
def splitHostPort (s : List Char) : Option (List Char × List Char) :=
  match Text.rsplitOnce ':' s with
  | none => none
  | some (before, port) =>
    if s.head? = some '[' then
      match Text.splitOnce ']' s with
      | none => none
      | some (inner, behind) =>
        if inner.length + 1 ≠ before.length then none
        else if '[' ∈ s.tail ∨ ']' ∈ behind then none
        else some (inner.tail, port)
    else if ':' ∈ before ∨ '[' ∈ s ∨ ']' ∈ s then none
    else some (before, port)

/-- `Trim` with a set of characters. -/
def trimSet (set : List Char) (s : List Char) : List Char :=
  ((s.dropWhile (set.contains ·)).reverse.dropWhile (set.contains ·)).reverse

/-! ## Reading an address -/

/-- A field of a dotted address: a decimal number up to 255 without leading zeros. -/
def parseOctet (f : List Char) : Option UInt8 :=
  let n := f.foldl (fun n c => n * 10 + (c.toNat - '0'.toNat)) 0
  if f ≠ [] ∧ f.all Char.isDigit ∧ (f.length = 1 ∨ f.head? ≠ some '0') ∧ n ≤ 255 then
    some (UInt8.ofNat n)
  else none

def parseIPv4Fields (s : List Char) : Option (List UInt8) :=
  let fields := s.splitOn '.'
  if fields.length = 4 then fields.mapM parseOctet else none

def isHex (c : Char) : Bool :=
  c.isDigit || ('a' ≤ c && c ≤ 'f') || ('A' ≤ c && c ≤ 'F')

def hexValue (c : Char) : Nat :=
  if c.isDigit then c.toNat - '0'.toNat
  else if 'a' ≤ c then c.toNat - 'a'.toNat + 10
  else c.toNat - 'A'.toNat + 10

/-- The two bytes of a group. -/
def groupBytes (digits : List Char) : List UInt8 :=
  let n := digits.foldl (fun n c => n * 16 + hexValue c) 0
  [UInt8.ofNat (n / 256), UInt8.ofNat n]

/-- The loop over the groups of an IPv6 address: the text that is left, the bytes so far and
where the double colon stands among them. Each turn adds two bytes, so eight turns are
enough. -/
def parseGroups : Nat → List Char → List UInt8 → Option Nat →
    Option (List Char × List UInt8 × Option Nat)
  | 0, s, ip, ellipsis => some (s, ip, ellipsis)
  | turns + 1, s, ip, ellipsis =>
    let digits := s.takeWhile isHex
    let rest := s.drop digits.length
    if digits = [] ∨ 4 < digits.length then none
    else if rest.head? = some '.' then
      -- an IPv4 address at the end
      if ellipsis = none ∧ ip.length ≠ 12 ∨ 16 < ip.length + 4 then none
      else (parseIPv4Fields s).map fun fields => ([], ip ++ fields, ellipsis)
    else
      let ip := ip ++ groupBytes digits
      match rest with
      | [] => some ([], ip, ellipsis)
      | ':' :: ':' :: rest =>
        if ellipsis.isSome then none
        else if rest = [] then some ([], ip, some ip.length)
        else parseGroups turns rest ip (some ip.length)
      | ':' :: c :: rest => parseGroups turns (c :: rest) ip ellipsis
      | _ => none

/-- Zeros in the place of the double colon, at least one group of them. -/
def expand : List Char × List UInt8 × Option Nat → Option (List UInt8)
  | ([], ip, some ellipsis) =>
    if ip.length < 16 then
      some (ip.take ellipsis ++ List.replicate (16 - ip.length) 0 ++ ip.drop ellipsis)
    else none
  | ([], ip, none) => if ip.length < 16 then none else some ip
  | (_ :: _, _) => none

/-- An address with a zone is not an IP. -/
def parseIPv6 (s : List Char) : Option (List UInt8) :=
  if '%' ∈ s then none
  else
    match s with
    | [':', ':'] => some (List.replicate 16 0)
    | ':' :: ':' :: rest => (parseGroups 8 rest [] (some 0)).bind expand
    | s => (parseGroups 8 s [] none).bind expand

/-- The bytes in front of an IPv4 address. -/
def v4Prefix : List UInt8 := [0, 0, 0, 0, 0, 0, 0, 0, 0, 0, 255, 255]

def parseIP (s : List Char) : Option (List UInt8) :=
  match s.find? (['.', ':', '%'].contains ·) with
  | some '.' => (parseIPv4Fields s).map (v4Prefix ++ ·)
  | some ':' => parseIPv6 s
  | _ => none

/-! ## Printing an address -/

def groups : List UInt8 → List Nat
  | high :: low :: rest => (high.toNat * 256 + low.toNat) :: groups rest
  | _ => []

/-- The start and the length of the first of the longest runs of at least two zero groups. -/
def zeroRun (gs : List Nat) : Option (Nat × Nat) :=
  (List.range gs.length).foldl
    (fun best i =>
      let n := ((gs.drop i).takeWhile (· = 0)).length
      if 2 ≤ n ∧ (best.map Prod.snd).getD 0 < n then some (i, n) else best)
    none

def joinWith (sep : Char) (parts : List (List Char)) : List Char := [sep].intercalate parts

/-- `IP.String`. -/
def ipString (ip : List UInt8) : List Char :=
  if ip.take 12 = v4Prefix then joinWith '.' ((ip.drop 12).map fun b => Nat.toDigits 10 b.toNat)
  else
    let gs := groups ip
    let hex := fun gs => joinWith ':' (gs.map (Nat.toDigits 16))
    match zeroRun gs with
    | none => hex gs
    | some (i, n) => hex (gs.take i) ++ [':', ':'] ++ hex (gs.drop (i + n))

end GoNet
