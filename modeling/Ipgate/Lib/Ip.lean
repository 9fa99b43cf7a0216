-- SUMMARY: IP addresses and CIDR blocks: membership, masked networks, when two blocks meet, and their text form.
import Mathlib.Algebra.Ring.Nat

/-!
# IP networks

A CIDR block of width `w` keeps the address as it was written, host bits
included, next to the length of the fixed part. Masking the host bits gives the
*network* of the block. Two blocks are either nested or have no address in
common, so whether they meet is decided by the shorter of the two lengths.
-/

namespace Net

/-! ## Blocks of one address family -/

/-- A block of `w`-bit addresses in address/length notation. The host bits of
`addr` are kept as written. -/
structure Cidr (w : Nat) where
  addr : BitVec w
  len : Nat
  len_le : len ≤ w
  deriving DecidableEq

namespace Cidr

variable {w : Nat} {c d : Cidr w} {a : BitVec w}

/-- The block of one address. -/
def host (a : BitVec w) : Cidr w := ⟨a, w, Nat.le_refl w⟩

/-- The number of addresses in the block. -/
def size (c : Cidr w) : Nat := 2 ^ (w - c.len)

theorem size_pos (c : Cidr w) : 0 < c.size := Nat.two_pow_pos _

/-- The index of the block among the blocks of its length. -/
def index (c : Cidr w) : Nat := c.addr.toNat / c.size

/-- The least address of the block. -/
def first (c : Cidr w) : Nat := c.index * c.size

/-- The greatest address of the block. -/
def last (c : Cidr w) : Nat := c.first + (c.size - 1)

/-- The address lies in the block: it agrees with it outside the host bits. -/
def Contains (c : Cidr w) (a : BitVec w) : Prop := a.toNat / c.size = c.index

instance (c : Cidr w) (a : BitVec w) : Decidable (c.Contains a) :=
  inferInstanceAs (Decidable (_ = _))

theorem contains_addr (c : Cidr w) : c.Contains c.addr := rfl

theorem host_contains {b : BitVec w} : (host a).Contains b ↔ b = a := by
  unfold Contains index size host
  rw [Nat.sub_self, Nat.pow_zero, Nat.div_one, Nat.div_one, BitVec.toNat_inj]

/-- A block is the interval from its first to its last address. -/
theorem contains_iff_interval : c.Contains a ↔ c.first ≤ a.toNat ∧ a.toNat ≤ c.last := by
  have hpos := c.size_pos
  unfold Contains last first
  rw [Nat.div_eq_iff hpos]
  omega

theorem first_le (c : Cidr w) : c.first ≤ c.addr.toNat :=
  (contains_iff_interval.mp c.contains_addr).1

theorem first_lt (c : Cidr w) : c.first < 2 ^ w :=
  Nat.lt_of_le_of_lt c.first_le c.addr.isLt

/-- The block with its host bits masked. -/
def network (c : Cidr w) : Cidr w := { c with addr := BitVec.ofNatLT c.first c.first_lt }

@[simp] theorem network_len : c.network.len = c.len := rfl

@[simp] theorem network_size : c.network.size = c.size := rfl

@[simp] theorem network_index : c.network.index = c.index := by
  have hfirst : c.network.addr.toNat = c.index * c.size := by simp [network, first]
  rw [index, network_size, hfirst, Nat.mul_div_cancel _ c.size_pos]

@[simp] theorem network_contains : c.network.Contains a ↔ c.Contains a := by
  simp [Contains]

@[simp] theorem network_network : c.network.network = c.network := by
  have hfirst : c.network.first = c.first := by simp [first]
  simp only [network] at hfirst ⊢
  congr 1
  exact BitVec.eq_of_toNat_eq (by simpa using hfirst)

/-! ### Meeting blocks -/

/-- The two blocks agree on the shorter of their two lengths. -/
def Overlaps (c d : Cidr w) : Prop :=
  c.addr.toNat / max c.size d.size = d.addr.toNat / max c.size d.size

instance (c d : Cidr w) : Decidable (c.Overlaps d) := inferInstanceAs (Decidable (_ = _))

theorem Overlaps.symm (h : c.Overlaps d) : d.Overlaps c := by
  unfold Overlaps at *
  rw [Nat.max_comm]
  exact h.symm

theorem overlaps_comm : c.Overlaps d ↔ d.Overlaps c := ⟨.symm, .symm⟩

theorem Overlaps.refl (c : Cidr w) : c.Overlaps c := rfl

/-- The index in the larger block is determined by the index in the smaller. -/
private theorem div_eq_of_size_le {x y : Nat} (hle : c.size ≤ d.size)
    (h : x / c.size = y / c.size) : x / d.size = y / d.size := by
  have hdvd : c.size ∣ d.size := by
    unfold size at *
    exact Nat.pow_dvd_pow 2 ((Nat.pow_le_pow_iff_right (by decide)).mp hle)
  obtain ⟨k, hk⟩ := hdvd
  rw [hk, ← Nat.div_div_eq_div_mul, ← Nat.div_div_eq_div_mul, h]

private theorem overlaps_of_size_le (hle : c.size ≤ d.size) :
    c.Overlaps d ↔ ∃ a, c.Contains a ∧ d.Contains a := by
  unfold Overlaps
  rw [Nat.max_eq_right hle]
  constructor
  · intro h
    exact ⟨c.addr, c.contains_addr, h⟩
  · rintro ⟨a, hc, hd⟩
    exact (div_eq_of_size_le hle hc).symm.trans hd

/-- Blocks overlap exactly when they have an address in common. -/
theorem overlaps_iff : c.Overlaps d ↔ ∃ a, c.Contains a ∧ d.Contains a := by
  rcases Nat.le_total c.size d.size with hle | hle
  · exact overlaps_of_size_le hle
  · rw [overlaps_comm, overlaps_of_size_le hle]
    exact exists_congr fun a => and_comm

end Cidr

/-! ## Addresses and networks of both families -/

inductive IpAddr where
  | v4 (a : BitVec 32)
  | v6 (a : BitVec 128)
  deriving DecidableEq

namespace IpAddr

/-- An IPv4 address that is mapped into IPv6, as the address that it is. -/
def toCanonical : IpAddr → IpAddr
  | .v4 a => .v4 a
  | .v6 a => if a.toNat / 2 ^ 32 = 0xffff then .v4 (a.setWidth 32) else .v6 a

def isLoopback : IpAddr → Bool
  | .v4 a => a.toNat / 2 ^ 24 = 127
  | .v6 a => a = 1

@[simp] theorem toCanonical_toCanonical (ip : IpAddr) : ip.toCanonical.toCanonical = ip.toCanonical := by
  cases ip with
  | v4 a => rfl
  | v6 a =>
    by_cases hmapped : a.toNat / 2 ^ 32 = 0xffff
    · have hv4 : (IpAddr.v6 a).toCanonical = .v4 (a.setWidth 32) := if_pos hmapped
      rw [hv4]
      rfl
    · have hself : (IpAddr.v6 a).toCanonical = .v6 a := if_neg hmapped
      rw [hself, hself]

end IpAddr

inductive IpNet where
  | v4 (net : Cidr 32)
  | v6 (net : Cidr 128)
  deriving DecidableEq

namespace IpNet

/-- The address is of the family of the network and lies in its block. -/
def Contains : IpNet → IpAddr → Prop
  | .v4 c, .v4 a => c.Contains a
  | .v6 c, .v6 a => c.Contains a
  | _, _ => False

instance : (n : IpNet) → (a : IpAddr) → Decidable (n.Contains a)
  | .v4 c, .v4 a => inferInstanceAs (Decidable (c.Contains a))
  | .v6 c, .v6 a => inferInstanceAs (Decidable (c.Contains a))
  | .v4 _, .v6 _ => inferInstanceAs (Decidable False)
  | .v6 _, .v4 _ => inferInstanceAs (Decidable False)

/-- The network of one address. -/
def host : IpAddr → IpNet
  | .v4 a => .v4 (Cidr.host a)
  | .v6 a => .v6 (Cidr.host a)

/-- The network with its host bits masked. -/
def network : IpNet → IpNet
  | .v4 c => .v4 c.network
  | .v6 c => .v6 c.network

/-- The network is written without host bits. -/
def Canonical (n : IpNet) : Prop := n.network = n

instance (n : IpNet) : Decidable n.Canonical := inferInstanceAs (Decidable (_ = _))

@[simp] theorem network_network (n : IpNet) : n.network.network = n.network := by
  cases n <;> simp [network]

theorem network_canonical (n : IpNet) : n.network.Canonical := n.network_network

@[simp] theorem network_contains {n : IpNet} {a : IpAddr} :
    n.network.Contains a ↔ n.Contains a := by
  cases n <;> cases a <;> simp [network, Contains]

theorem host_contains {a b : IpAddr} : (host a).Contains b ↔ b = a := by
  cases a <;> cases b <;> simp [host, Contains, Cidr.host_contains]

/-- The two networks are of one family and their blocks overlap. -/
def Overlaps : IpNet → IpNet → Prop
  | .v4 c, .v4 d => c.Overlaps d
  | .v6 c, .v6 d => c.Overlaps d
  | _, _ => False

instance : (m n : IpNet) → Decidable (m.Overlaps n)
  | .v4 c, .v4 d => inferInstanceAs (Decidable (c.Overlaps d))
  | .v6 c, .v6 d => inferInstanceAs (Decidable (c.Overlaps d))
  | .v4 _, .v6 _ => inferInstanceAs (Decidable False)
  | .v6 _, .v4 _ => inferInstanceAs (Decidable False)

theorem overlaps_iff {m n : IpNet} : m.Overlaps n ↔ ∃ a, m.Contains a ∧ n.Contains a := by
  cases m with
  | v4 c =>
    cases n with
    | v4 d =>
      refine Cidr.overlaps_iff.trans ⟨fun ⟨a, h⟩ => ⟨.v4 a, h⟩, ?_⟩
      rintro ⟨a, h⟩
      cases a with
      | v4 a => exact ⟨a, h⟩
      | v6 a => exact h.1.elim
    | v6 d =>
      refine ⟨False.elim, ?_⟩
      rintro ⟨a, h⟩
      cases a with
      | v4 a => exact h.2.elim
      | v6 a => exact h.1.elim
  | v6 c =>
    cases n with
    | v4 d =>
      refine ⟨False.elim, ?_⟩
      rintro ⟨a, h⟩
      cases a with
      | v4 a => exact h.1.elim
      | v6 a => exact h.2.elim
    | v6 d =>
      refine Cidr.overlaps_iff.trans ⟨fun ⟨a, h⟩ => ⟨.v6 a, h⟩, ?_⟩
      rintro ⟨a, h⟩
      cases a with
      | v4 a => exact h.1.elim
      | v6 a => exact ⟨a, h⟩

theorem Overlaps.symm {m n : IpNet} (h : m.Overlaps n) : n.Overlaps m := by
  rw [overlaps_iff] at *
  exact h.imp fun _ => And.symm

end IpNet

/-! ## Text form -/

/-- Lowercase hexadecimal digits without leading zeros. -/
def hexString (n : Nat) : String := String.ofList (Nat.toDigits 16 n)

/-- An IPv4 address in dotted notation. -/
def ipv4String (a : BitVec 32) : String :=
  let octet (i : Nat) := toString (a.toNat / 256 ^ i % 256)
  octet 3 ++ "." ++ octet 2 ++ "." ++ octet 1 ++ "." ++ octet 0

/-- The eight 16-bit segments of an IPv6 address, most significant first. -/
def segments (a : BitVec 128) : List Nat :=
  [7, 6, 5, 4, 3, 2, 1, 0].map fun i => a.toNat / 65536 ^ i % 65536

/-- Start and length of the first longest run of zeros, scanning from segment
`i` with the run that ends at the scan position in `cur` and the best run so far
in `best`. -/
def longestZeros (i : Nat) (cur best : Nat × Nat) : List Nat → Nat × Nat
  | [] => best
  | 0 :: rest =>
    let cur := if cur.2 = 0 then (i, 1) else (cur.1, cur.2 + 1)
    longestZeros (i + 1) cur (if best.2 < cur.2 then cur else best) rest
  | _ :: rest => longestZeros (i + 1) (0, 0) best rest

/-- An IPv6 address: IPv4-mapped addresses in dotted notation, otherwise
hexadecimal segments with the first longest run of at least two zeros elided. -/
def ipv6String (a : BitVec 128) : String :=
  let segs := segments a
  let hex (l : List Nat) := ":".intercalate (l.map hexString)
  if a.toNat / 2 ^ 32 = 0xffff then
    "::ffff:" ++ ipv4String (a.setWidth 32)
  else
    let (start, len) := longestZeros 0 (0, 0) (0, 0) segs
    if 1 < len then hex (segs.take start) ++ "::" ++ hex (segs.drop (start + len)) else hex segs

def IpNet.toString : IpNet → String
  | .v4 c => ipv4String c.addr ++ "/" ++ Nat.repr c.len
  | .v6 c => ipv6String c.addr ++ "/" ++ Nat.repr c.len

/-! ## Reading -/

/-- A decimal number of one to three digits, without a leading zero, at most 255. -/
def parseOctet (cs : List Char) : Option Nat :=
  let n := cs.foldl (fun n c => n * 10 + (c.toNat - '0'.toNat)) 0
  if cs ≠ [] ∧ cs.length ≤ 3 ∧ cs.all Char.isDigit ∧ (cs.head? = some '0' → cs.length = 1) ∧ n ≤ 255 then
    some n
  else none

/-- An IPv4 address in dotted notation. -/
def parseIpv4 (s : String) : Option (BitVec 32) :=
  match (s.toList.splitOn '.').map parseOctet with
  | [some a, some b, some c, some d] => some (BitVec.ofNat 32 (((a * 256 + b) * 256 + c) * 256 + d))
  | _ => none

end Net
