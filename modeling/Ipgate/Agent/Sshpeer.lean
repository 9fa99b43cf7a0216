-- SUMMARY: sshpeer.rs: the socket table of the kernel, and the client behind a connection that sshd has forwarded.
import Mathlib.Data.Finset.Dedup
import Mathlib.Data.Finset.Insert
import Ipgate.Lib.Bytes
import Ipgate.Lib.IpText
import Ipgate.Lib.Radix
import Ipgate.Lib.Utf8

/-!
# The client behind a tunnel

sshd forwards the connections of a client from loopback. The process that has the other end of
such a connection also has the connection of the client. Both are found in the tables of sockets
that the kernel prints, the process by the links to its sockets.
-/

namespace Ipgate.Sshpeer

open Net Bytes

def TCP_ESTABLISHED : UInt8 := 1

structure SocketAddr where
  ip : IpAddr
  port : UInt16
  deriving DecidableEq

structure TcpRow where
  localAddr : SocketAddr
  remote : SocketAddr
  state : UInt8
  inode : UInt64
  deriving DecidableEq

/-! ## Reading the tables -/

/-- The word of eight digits at an index, as a machine of the byte order has it in memory. -/
def word (e : Endian) (ip : List Char) (i : ℕ) : Option (List UInt8) := do
  let digits ← Utf8.slice (i * 8) (i * 8 + 8) ip
  let n ← Radix.fromStrRadix 16 4294967296 digits
  return toNe e 4 n

/-- Eight digits for IPv4, and four words of eight for IPv6. -/
def parseIp (e : Endian) (ip : List Char) : Option IpAddr :=
  if Utf8.length ip = 8 then do
    let w ← word e ip 0
    return .v4 (BitVec.ofNat 32 (fromBe w))
  else if Utf8.length ip = 32 then do
    let ws ← [0, 1, 2, 3].mapM (word e ip)
    return .v6 (BitVec.ofNat 128 (fromBe ws.flatten))
  else none

def parseAddr (e : Endian) (s : List Char) : Option SocketAddr := do
  let (ip, port) ← Text.splitOnce ':' s
  let port ← Radix.fromStrRadix 16 65536 port
  let ip ← parseIp e ip
  return ⟨ip, UInt16.ofNat port⟩

def parseRow (e : Endian) (line : List Char) : Option TcpRow := do
  let f := Text.splitWhitespace line
  let localAddr ← parseAddr e (← f[1]?)
  let remote ← parseAddr e (← f[2]?)
  let state ← Radix.fromStrRadix 16 256 (← f[3]?)
  let inode ← Radix.fromStrRadix 10 18446744073709551616 (← f[9]?)
  return ⟨localAddr, remote, UInt8.ofNat state, UInt64.ofNat inode⟩

def parseProcNetTcp (e : Endian) (text : String) : List TcpRow :=
  ((Text.lines text.toList).drop 1).filterMap (parseRow e)

/-! ## The client -/

/-- Addresses are compared in canonical form. -/
def same (a b : SocketAddr) : Bool := a.port = b.port && a.ip.toCanonical = b.ip.toCanonical

/-- An established connection of the process, from elsewhere. -/
def isClient (owned : Finset UInt64) (r : TcpRow) : Bool :=
  decide (r.inode ∈ owned) && r.state = TCP_ESTABLISHED && !r.remote.ip.toCanonical.isLoopback

/-- The connection on the port of sshd, or else the only one. -/
def pickClient (rows : List TcpRow) (owned : Finset UInt64) (sshPort : UInt16) : Option IpAddr :=
  let cands := rows.filter (isClient owned)
  let only :=
    match cands with
    | [r] => some r
    | _ => none
  ((cands.find? fun r => r.localAddr.port = sshPort).or only).map fun r => r.remote.ip.toCanonical

/-! ## The process -/

/-- A process as it is listed: its name, and the links of its files where they can be listed. -/
structure ProcEntry where
  name : List Char
  fds : Option (List (Option (List Char)))

/-- What can be read below `/proc`. -/
structure Proc where
  tcp : Option String
  tcp6 : Option String
  entries : Option (List ProcEntry)

def socketPrefix : List Char := "socket:[".toList

/-- The inode of a link to a socket. -/
def parseSocketLink (l : List Char) : Option UInt64 := do
  let rest ← l.dropPrefix? socketPrefix
  let digits ← rest.dropSuffix? [']']
  let n ← Radix.fromStrRadix 10 18446744073709551616 digits
  return UInt64.ofNat n

/-- The link to a socket. -/
def socketLink (inode : UInt64) : List Char := socketPrefix ++ Nat.toDigits 10 inode.toNat ++ [']']

/-- The sockets of the first process that has the one asked for. -/
def socketInodesOfOwner (proc : Proc) (inode : UInt64) : Option (Finset UInt64) := do
  let entries ← proc.entries
  entries.findSome? fun ent =>
    if ent.name.all Char.isDigit then do
      let fds ← ent.fds
      let links := fds.filterMap id
      if socketLink inode ∈ links then some (links.filterMap parseSocketLink).toFinset else none
    else none

/-- The rows of the tables that can be read. -/
def Proc.rows (e : Endian) (proc : Proc) : List TcpRow :=
  [proc.tcp, proc.tcp6].flatMap fun text => (text.map (parseProcNetTcp e)).getD []

/-- The connection as sshd has it, with the ends the other way round. -/
def isTunnel (localAddr peer : SocketAddr) (r : TcpRow) : Bool :=
  same r.localAddr peer && same r.remote localAddr && r.inode ≠ 0

/-- The client behind a connection that the agent has accepted. -/
def resolve (e : Endian) (proc : Proc) (localAddr peer : SocketAddr) (sshPort : UInt16) : Option IpAddr := do
  let tunnel ← (proc.rows e).find? (isTunnel localAddr peer)
  let owned ← socketInodesOfOwner proc tunnel.inode
  pickClient (proc.rows e) owned sshPort

/-! ## What the kernel prints -/

/-- The bytes of an address in network order. -/
def octets : IpAddr → List UInt8
  | .v4 a => toBe 4 a.toNat
  | .v6 a => toBe 16 a.toNat

/-- The word of four bytes at an index. -/
def addrWord (ip : IpAddr) (i : ℕ) : List UInt8 := ((octets ip).drop (i * 4)).take 4

/-- A word as the number that it is for the machine, with `%08X`. -/
def printWord (e : Endian) (ip : IpAddr) (i : ℕ) : List Char := Radix.padded 16 8 (fromNe e (addrWord ip i))

def printIp (e : Endian) (ip : IpAddr) : List Char := ((List.range ((octets ip).length / 4)).map (printWord e ip)).flatten

/-- The port with `%04X`. -/
def printAddr (e : Endian) (a : SocketAddr) : List Char := printIp e a.ip ++ ':' :: Radix.padded 16 4 a.port.toNat

/-- What is in a row beside the fields that are read. -/
structure Rest where
  /-- The number of the row. -/
  sl : List Char
  /-- The fields between the state and the inode. -/
  middle : List (List Char)
  trailing : List (List Char)
  indent : ℕ
  /-- The spaces in front of a field behind the first, beyond one. -/
  spaces : ℕ → ℕ
  /-- The spaces at the end. -/
  fill : ℕ
  sl_word : Text.Word sl
  middle_length : middle.length = 5
  middle_word : ∀ t ∈ middle, Text.Word t
  trailing_word : ∀ t ∈ trailing, Text.Word t

/-- The fields behind the number, the state with `%02X` and the inode with `%lu`. -/
def fields (e : Endian) (row : TcpRow) (rest : Rest) : List (List Char) :=
  printAddr e row.localAddr :: printAddr e row.remote :: Radix.padded 16 2 row.state.toNat ::
    (rest.middle ++ Nat.toDigits 10 row.inode.toNat :: rest.trailing)

/-- The fields with the spaces in front of them. -/
def placed (e : Endian) (row : TcpRow) (rest : Rest) : List (ℕ × List Char) :=
  (fields e row rest).zipIdx.map fun (t, i) => (rest.spaces i, t)

def printRow (e : Endian) (row : TcpRow) (rest : Rest) : List Char :=
  List.replicate rest.indent ' ' ++ (rest.sl ++ Text.spaced (placed e row rest) ++ List.replicate rest.fill ' ')

def printTable (e : Endian) (header : List Char) (rows : List (TcpRow × Rest)) : String :=
  String.ofList (header ++ '\n' :: (rows.map fun (row, rest) => printRow e row rest).flatMap (· ++ ['\n']))

/-! ## Reading what is printed -/

section Printed

variable {e : Endian} {ip : IpAddr} {a : SocketAddr} {row : TcpRow} {rest : Rest} {c : Char} {i k n : ℕ}

/-- The digits are of ASCII and visible, and there is no colon among them. -/
theorem padded_chars (h : c ∈ Radix.padded 16 k n) : 33 ≤ c.toNat ∧ c.toNat < 127 ∧ c ≠ ':' := by
  obtain ⟨d, hd, rfl⟩ := Radix.mem_padded (by decide) (by decide) h
  have hdigit : ∀ d < 16, 33 ≤ (Nat.digitChar d).toUpper.toNat ∧ (Nat.digitChar d).toUpper.toNat < 127 ∧
      (Nat.digitChar d).toUpper ≠ ':' := by decide
  exact hdigit d hd

theorem length_addrWord (h : i < (octets ip).length / 4) : (addrWord ip i).length = 4 := by
  unfold addrWord
  rw [List.length_take, List.length_drop]
  omega

theorem length_printWord (h : i < (octets ip).length / 4) : (printWord e ip i).length = 8 := by
  have hlt := fromNe_lt_pow e (addrWord ip i)
  rw [length_addrWord h] at hlt
  exact Radix.length_padded (by decide) (by decide) hlt

theorem printIp_chars (h : c ∈ printIp e ip) : 33 ≤ c.toNat ∧ c.toNat < 127 ∧ c ≠ ':' := by
  obtain ⟨t, ht, hc⟩ := List.mem_flatten.mp h
  obtain ⟨i, -, rfl⟩ := List.mem_map.mp ht
  exact padded_chars hc

theorem length_printIp (e : Endian) (ip : IpAddr) : Utf8.length (printIp e ip) = (octets ip).length / 4 * 8 := by
  rw [Utf8.length_ascii fun c hc => Nat.lt_trans (printIp_chars hc).2.1 (by decide)]
  unfold printIp
  rw [Utf8.length_flatten (k := 8), List.length_map, List.length_range]
  intro t ht
  obtain ⟨i, hi, rfl⟩ := List.mem_map.mp ht
  exact length_printWord (List.mem_range.mp hi)

/-- Each word is read as the bytes that it is in memory, whatever their order. -/
theorem word_printIp (h : i < (octets ip).length / 4) : word e (printIp e ip) i = some (addrWord ip i) := by
  have hget : ((List.range ((octets ip).length / 4)).map (printWord e ip))[i]? = some (printWord e ip i) := by
    rw [List.getElem?_map, List.getElem?_range h]
    rfl
  have hslice : Utf8.slice (i * 8) (i * 8 + 8) (printIp e ip) = some (printWord e ip i) := by
    refine Utf8.slice_flatten (fun t ht c hc => ?_) (fun t ht => ?_) hget
    · obtain ⟨j, -, rfl⟩ := List.mem_map.mp ht
      exact Nat.lt_trans (padded_chars hc).2.1 (by decide)
    · obtain ⟨j, hj, rfl⟩ := List.mem_map.mp ht
      exact length_printWord (List.mem_range.mp hj)
  have hlt := fromNe_lt_pow e (addrWord ip i)
  have hback := toNe_fromNe e (addrWord ip i)
  rw [length_addrWord h] at hlt hback
  have hread : Radix.fromStrRadix 16 4294967296 (printWord e ip i) = some (fromNe e (addrWord ip i)) :=
    Radix.fromStrRadix_padded (by decide) (by decide) hlt
  unfold word
  rw [hslice]
  dsimp only [bind, Option.bind]
  rw [hread]
  dsimp only [pure]
  rw [hback]

theorem ofNat_toBe {w : ℕ} (hw : 2 ^ w = 256 ^ k) (a : BitVec w) : BitVec.ofNat w (fromBe (toBe k a.toNat)) = a := by
  have hlt := a.isLt
  rw [hw] at hlt
  rw [fromBe_toBe, Nat.mod_eq_of_lt hlt, BitVec.ofNat_toNat, BitVec.setWidth_eq]

/-- An address is read as it is printed. -/
theorem parseIp_printIp (e : Endian) (ip : IpAddr) : parseIp e (printIp e ip) = some ip := by
  have hlen := length_printIp e ip
  cases ip with
  | v4 a =>
    have hoctets : (octets (.v4 a)).length = 4 := length_toBe 4 _
    rw [hoctets] at hlen
    have hword : word e (printIp e (.v4 a)) 0 = some (toBe 4 a.toNat) := by
      rw [word_printIp (by rw [hoctets]; decide)]
      unfold addrWord
      rw [Nat.zero_mul, List.drop_zero, List.take_of_length_le (Nat.le_of_eq hoctets)]
      rfl
    unfold parseIp
    rw [hlen, if_pos rfl, hword]
    dsimp only [bind, Option.bind, pure]
    rw [ofNat_toBe rfl a]
  | v6 a =>
    have hoctets : (octets (.v6 a)).length = 16 := length_toBe 16 _
    rw [hoctets] at hlen
    have hword (i : ℕ) (hi : i < 4) : word e (printIp e (.v6 a)) i = some (addrWord (.v6 a) i) :=
      word_printIp (by rw [hoctets]; exact hi)
    have hwords : [0, 1, 2, 3].mapM (word e (printIp e (.v6 a))) = some ((List.range 4).map (addrWord (.v6 a))) := by
      simp [hword, List.range_succ]
    -- the four words, one after another, are the sixteen octets
    have hflat : ((List.range 4).map (addrWord (.v6 a))).flatten = toBe 16 a.toNat := by
      have hpieces := flatten_pieces 4 4 (octets (.v6 a))
      rw [List.take_of_length_le (Nat.le_of_eq hoctets)] at hpieces
      exact hpieces
    unfold parseIp
    rw [hlen, if_neg (by decide), if_pos rfl, hwords]
    dsimp only [bind, Option.bind, pure]
    rw [hflat, ofNat_toBe rfl a]

theorem parseAddr_printAddr (e : Endian) (a : SocketAddr) : parseAddr e (printAddr e a) = some a := by
  have hcolon : ':' ∉ printIp e a.ip := fun hmem => (printIp_chars hmem).2.2 rfl
  have hport : Radix.fromStrRadix 16 65536 (Radix.padded 16 4 a.port.toNat) = some a.port.toNat :=
    Radix.fromStrRadix_padded (by decide) (by decide) a.port.toNat_lt
  unfold parseAddr printAddr
  rw [Text.splitOnce_append hcolon]
  dsimp only [bind, Option.bind]
  rw [hport, parseIp_printIp]
  dsimp only [pure]
  rw [UInt16.ofNat_toNat]

/-- 203.0.113.7:51234 on machines of either order, and a mapped address. -/
example : printAddr .little ⟨.v4 0xcb007107, 51234⟩ = ['0', '7', '7', '1', '0', '0', 'C', 'B', ':', 'C', '8', '2', '2'] ∧
    printAddr .big ⟨.v4 0xcb007107, 51234⟩ = ['C', 'B', '0', '0', '7', '1', '0', '7', ':', 'C', '8', '2', '2'] ∧
    (printAddr .little ⟨.v6 0xffffc6336409, 50000⟩).drop 16 =
      ['F', 'F', 'F', 'F', '0', '0', '0', '0', '0', '9', '6', '4', '3', '3', 'C', '6', ':', 'C', '3', '5', '0'] := by
  decide +kernel

/-! ### Rows -/

theorem word_of_visible {t : List Char} (hne : t ≠ []) (h : ∀ c ∈ t, 33 ≤ c.toNat ∧ c.toNat < 127) : Text.Word t :=
  ⟨hne, fun c hc => Text.not_isWhitespace_of_ascii (h c hc).1 (h c hc).2⟩

theorem word_printAddr (e : Endian) (a : SocketAddr) : Text.Word (printAddr e a) := by
  refine word_of_visible (by simp [printAddr]) fun c hc => ?_
  unfold printAddr at hc
  rw [List.mem_append, List.mem_cons] at hc
  rcases hc with hip | rfl | hport
  · exact ⟨(printIp_chars hip).1, (printIp_chars hip).2.1⟩
  · decide
  · exact ⟨(padded_chars hport).1, (padded_chars hport).2.1⟩

theorem word_padded : Text.Word (Radix.padded 16 k n) :=
  word_of_visible Radix.padded_ne_nil fun _ hc => ⟨(padded_chars hc).1, (padded_chars hc).2.1⟩

theorem word_toDigits (n : ℕ) : Text.Word (Nat.toDigits 10 n) :=
  ⟨Nat.toDigits_ne_nil, fun _ hc =>
    Text.not_isWhitespace_of_isDigit (Nat.isDigit_of_mem_toDigits (by decide) (by decide) hc)⟩

theorem fields_word {t : List Char} (h : t ∈ fields e row rest) : Text.Word t := by
  unfold fields at h
  simp only [List.mem_cons, List.mem_append] at h
  rcases h with rfl | rfl | rfl | hmiddle | rfl | htrailing
  · exact word_printAddr e row.localAddr
  · exact word_printAddr e row.remote
  · exact word_padded
  · exact rest.middle_word t hmiddle
  · exact word_toDigits row.inode.toNat
  · exact rest.trailing_word t htrailing

theorem placed_word {p : ℕ × List Char} (h : p ∈ placed e row rest) : Text.Word p.2 := by
  obtain ⟨⟨t, i⟩, hmem, rfl⟩ := List.mem_map.mp h
  exact fields_word (List.fst_mem_of_mem_zipIdx hmem)

theorem map_placed (e : Endian) (row : TcpRow) (rest : Rest) : (placed e row rest).map Prod.snd = fields e row rest := by
  unfold placed
  rw [List.map_map]
  exact List.zipIdx_map_fst 0 _

theorem splitWhitespace_printRow (e : Endian) (row : TcpRow) (rest : Rest) :
    Text.splitWhitespace (printRow e row rest) = rest.sl :: fields e row rest := by
  unfold printRow
  rw [Text.splitWhitespace_blank_append fun _ hc => Text.isWhitespace_of_mem_replicate hc,
    Text.splitWhitespace_append_blank fun _ hc => Text.isWhitespace_of_mem_replicate hc,
    Text.splitWhitespace_spaced fun _ hp => placed_word hp, map_placed, Text.splitWhitespace_word rest.sl_word]
  rfl

theorem parseRow_printRow (e : Endian) (row : TcpRow) (rest : Rest) : parseRow e (printRow e row rest) = some row := by
  have hstate : Radix.fromStrRadix 16 256 (Radix.padded 16 2 row.state.toNat) = some row.state.toNat :=
    Radix.fromStrRadix_padded (by decide) (by decide) row.state.toNat_lt
  have hinode : Radix.fromStrRadix 10 18446744073709551616 (Nat.toDigits 10 row.inode.toNat) = some row.inode.toNat :=
    Radix.fromStrRadix_decimal row.inode.toNat_lt
  have htenth : (rest.sl :: fields e row rest)[9]? = some (Nat.toDigits 10 row.inode.toNat) := by
    unfold fields
    simp only [List.getElem?_cons_succ]
    rw [List.getElem?_append_right (by rw [rest.middle_length]), rest.middle_length]
    rfl
  have hlocal : (rest.sl :: fields e row rest)[1]? = some (printAddr e row.localAddr) := rfl
  have hremote : (rest.sl :: fields e row rest)[2]? = some (printAddr e row.remote) := rfl
  have hfourth : (rest.sl :: fields e row rest)[3]? = some (Radix.padded 16 2 row.state.toNat) := rfl
  unfold parseRow
  rw [splitWhitespace_printRow]
  dsimp only [bind, Option.bind, pure]
  rw [hlocal, hremote, hfourth, htenth]
  dsimp only
  rw [parseAddr_printAddr, parseAddr_printAddr, hstate, hinode]
  dsimp only
  rw [UInt8.ofNat_toNat, UInt64.ofNat_toNat]

/-- There is no other whitespace in a row than spaces. -/
theorem mem_printRow (h : c ∈ printRow e row rest) : c = ' ' ∨ Text.isWhitespace c = false := by
  unfold printRow at h
  rw [List.mem_append, List.mem_append, List.mem_append] at h
  rcases h with hindent | (hsl | hfields) | hfill
  · exact .inl (List.eq_of_mem_replicate hindent)
  · exact .inr (rest.sl_word.2 c hsl)
  · cases Text.mem_spaced hfields with
    | inl hspace => exact .inl hspace
    | inr hword =>
      obtain ⟨p, hp, hc⟩ := hword
      exact .inr ((placed_word hp).2 c hc)
  · exact .inl (List.eq_of_mem_replicate hfill)

/-- A row is a line. -/
theorem printRow_line (e : Endian) (row : TcpRow) (rest : Rest) :
    '\n' ∉ printRow e row rest ∧ (printRow e row rest).getLast? ≠ some '\r' := by
  constructor
  · intro hfeed
    exact absurd (mem_printRow hfeed) (by decide)
  · intro hlast
    exact absurd (mem_printRow (List.mem_of_getLast? hlast)) (by decide)

/-- The rows of a table are read as they are, in their order. -/
theorem parseProcNetTcp_printTable (e : Endian) {header : List Char} (hheader : '\n' ∉ header)
    (rows : List (TcpRow × Rest)) : parseProcNetTcp e (printTable e header rows) = rows.map Prod.fst := by
  have hlines : Text.lines ((rows.map fun (row, rest) => printRow e row rest).flatMap (· ++ ['\n'])) =
      rows.map fun (row, rest) => printRow e row rest := by
    refine Text.lines_flatMap (fun l hl => ?_) fun l hl => ?_
    · obtain ⟨⟨row, rest⟩, -, rfl⟩ := List.mem_map.mp hl
      exact (printRow_line e row rest).1
    · obtain ⟨⟨row, rest⟩, -, rfl⟩ := List.mem_map.mp hl
      exact (printRow_line e row rest).2
  have hread : (parseRow e ∘ fun ((row, rest) : TcpRow × Rest) => printRow e row rest) = some ∘ Prod.fst :=
    funext fun (row, rest) => parseRow_printRow e row rest
  unfold parseProcNetTcp printTable
  rw [String.toList_ofList, Text.lines_append_cons hheader, hlines, List.drop_succ_cons, List.drop_zero,
    List.filterMap_map, hread, List.filterMap_eq_map]

end Printed

/-! ## The client that is found -/

section Found

variable {e : Endian} {rows : List TcpRow} {owned : Finset UInt64} {sshPort : UInt16} {ip : IpAddr} {r : TcpRow}
variable {proc : Proc} {inode : UInt64} {localAddr peer : SocketAddr}

/-- The row is of an established connection of the process, and its other end is elsewhere. -/
structure Client (owned : Finset UInt64) (r : TcpRow) : Prop where
  owned : r.inode ∈ owned
  established : r.state = TCP_ESTABLISHED
  elsewhere : r.remote.ip.toCanonical.isLoopback = false

theorem isClient_iff : isClient owned r = true ↔ Client owned r := by
  unfold isClient
  simp only [Bool.and_eq_true, decide_eq_true_eq, Bool.not_eq_true']
  constructor
  · rintro ⟨⟨howned, hstate⟩, hremote⟩
    exact ⟨howned, hstate, hremote⟩
  · intro h
    exact ⟨⟨h.owned, h.established⟩, h.elsewhere⟩

/-- The address is that of a client, on the port of sshd if there is one on it. -/
theorem pickClient_some (h : pickClient rows owned sshPort = some ip) :
    ∃ r ∈ rows, Client owned r ∧ ip = r.remote.ip.toCanonical ∧
      ((∃ r' ∈ rows, Client owned r' ∧ r'.localAddr.port = sshPort) → r.localAddr.port = sshPort) := by
  have hmem {r : TcpRow} (hr : r ∈ rows.filter (isClient owned)) : r ∈ rows ∧ Client owned r :=
    ⟨(List.mem_filter.mp hr).1, isClient_iff.mp (List.mem_filter.mp hr).2⟩
  unfold pickClient at h
  obtain ⟨r, hhit, rfl⟩ := Option.map_eq_some_iff.mp h
  cases hfind : (rows.filter (isClient owned)).find? fun r => r.localAddr.port = sshPort with
  | some r' =>
    rw [hfind] at hhit
    obtain rfl := Option.some.inj hhit
    obtain ⟨hin, hclient⟩ := hmem (List.mem_of_find?_eq_some hfind)
    have hport := List.find?_some hfind
    exact ⟨r', hin, hclient, rfl, fun _ => of_decide_eq_true hport⟩
  | none =>
    rw [hfind, Option.none_or] at hhit
    -- No client is on the port, so the only one counts.
    have hnone : ¬∃ r' ∈ rows, Client owned r' ∧ r'.localAddr.port = sshPort := by
      rintro ⟨r', hin, hclient, hport⟩
      have hcand := List.mem_filter.mpr ⟨hin, isClient_iff.mpr hclient⟩
      exact List.find?_eq_none.mp hfind r' hcand (decide_eq_true hport)
    split at hhit
    · next only honly =>
      obtain rfl := Option.some.inj hhit
      obtain ⟨hin, hclient⟩ := hmem (honly ▸ List.mem_singleton_self only)
      exact ⟨only, hin, hclient, rfl, fun hone => (hnone hone).elim⟩
    · cases hhit

theorem parseSocketLink_socketLink (inode : UInt64) : parseSocketLink (socketLink inode) = some inode := by
  have hfront : (socketLink inode).dropPrefix? socketPrefix = some (Nat.toDigits 10 inode.toNat ++ [']']) :=
    List.dropPrefix?_eq_some_iff.mpr ⟨socketPrefix, List.append_assoc .., beq_self_eq_true _⟩
  have hback : (Nat.toDigits 10 inode.toNat ++ [']']).dropSuffix? [']'] = some (Nat.toDigits 10 inode.toNat) :=
    List.dropSuffix?_eq_some_iff.mpr ⟨[']'], rfl, beq_self_eq_true _⟩
  have hread : Radix.fromStrRadix 10 18446744073709551616 (Nat.toDigits 10 inode.toNat) = some inode.toNat :=
    Radix.fromStrRadix_decimal inode.toNat_lt
  unfold parseSocketLink
  rw [hfront]
  dsimp only [bind, Option.bind, pure]
  rw [hback]
  dsimp only
  rw [hread]
  dsimp only
  rw [UInt64.ofNat_toNat]

/-- The process that is found has the socket that was asked for. -/
theorem mem_socketInodesOfOwner (h : socketInodesOfOwner proc inode = some owned) : inode ∈ owned := by
  obtain ⟨entries, -, hfind⟩ := Option.bind_eq_some_iff.mp h
  obtain ⟨ent, -, hent⟩ := List.exists_of_findSome?_eq_some hfind
  split at hent
  · obtain ⟨fds, -, hlinks⟩ := Option.bind_eq_some_iff.mp hent
    dsimp only at hlinks
    split at hlinks
    · next hmem =>
      rw [← Option.some.inj hlinks, List.mem_toFinset, List.mem_filterMap]
      exact ⟨socketLink inode, hmem, parseSocketLink_socketLink inode⟩
    · cases hlinks
  · cases hent

/-- What the agent is told is the address of a connection of the process that has the other end of its own. -/
theorem resolve_some (h : resolve e proc localAddr peer sshPort = some ip) :
    ∃ tunnel ∈ proc.rows e, isTunnel localAddr peer tunnel = true ∧
      ∃ owned, tunnel.inode ∈ owned ∧ ∃ r ∈ proc.rows e, Client owned r ∧ ip = r.remote.ip.toCanonical := by
  obtain ⟨tunnel, hfind, hrest⟩ := Option.bind_eq_some_iff.mp h
  obtain ⟨owned, howned, hpick⟩ := Option.bind_eq_some_iff.mp hrest
  obtain ⟨r, hr, hclient, hip, -⟩ := pickClient_some hpick
  exact ⟨tunnel, List.mem_of_find?_eq_some hfind, List.find?_some hfind, owned, mem_socketInodesOfOwner howned,
    r, hr, hclient, hip⟩

/-- The tables are read as they are printed, on machines of either order. An address that is picked is that of a
client in canonical form and not of loopback, and of one on the port of sshd if there is one. -/
theorem socket_tables_read :
    (∀ (e : Endian) (header : List Char) (rows : List (TcpRow × Rest)), '\n' ∉ header →
      parseProcNetTcp e (printTable e header rows) = rows.map Prod.fst) ∧
    ∀ (rows : List TcpRow) (owned : Finset UInt64) (sshPort : UInt16) (ip : IpAddr),
      pickClient rows owned sshPort = some ip →
        ip.toCanonical = ip ∧ ip.isLoopback = false ∧
        ∃ r ∈ rows, Client owned r ∧ ip = r.remote.ip.toCanonical ∧
          ((∃ r' ∈ rows, Client owned r' ∧ r'.localAddr.port = sshPort) → r.localAddr.port = sshPort) := by
  refine ⟨fun e header rows hheader => parseProcNetTcp_printTable e hheader rows, ?_⟩
  intro rows owned sshPort ip h
  obtain ⟨r, hr, hclient, rfl, hport⟩ := pickClient_some h
  exact ⟨IpAddr.toCanonical_toCanonical _, hclient.elsewhere, r, hr, hclient, rfl, hport⟩

/-- A client with a mapped address. -/
def mappedRow : TcpRow where
  localAddr := ⟨.v6 0xffff0a00000a, 22⟩
  remote := ⟨.v6 0xffffc6336409, 50000⟩
  state := TCP_ESTABLISHED
  inode := 2001

theorem word_zero : Text.Word ['0'] := by
  refine ⟨List.cons_ne_nil _ _, fun c hc => ?_⟩
  rw [List.mem_singleton.mp hc]
  decide

theorem zeros_word : ∀ t ∈ List.replicate 5 ['0'], Text.Word t := by
  intro t ht
  rw [List.eq_of_mem_replicate ht]
  exact word_zero

/-- A row with zeros in the fields that are not read. -/
def zeros : Rest where
  sl := ['0']
  middle := List.replicate 5 ['0']
  trailing := List.replicate 5 ['0']
  indent := 3
  spaces _ := 0
  fill := 10
  sl_word := word_zero
  middle_length := List.length_replicate
  middle_word := zeros_word
  trailing_word := zeros_word

theorem socket_tables_read_mapped :
    parseProcNetTcp .little (printTable .little ['s', 'l'] [(mappedRow, zeros)]) = [mappedRow] ∧
    pickClient [mappedRow] {2001} 22 = some (.v4 0xc6336409) ∧ (IpAddr.v4 0xc6336409).isLoopback = false := by
  obtain ⟨hread, hpick⟩ := socket_tables_read
  have hfound : pickClient [mappedRow] {2001} 22 = some (.v4 0xc6336409) := by decide
  exact ⟨hread .little ['s', 'l'] [(mappedRow, zeros)] (by decide), hfound, (hpick _ _ _ _ hfound).2.1⟩

end Found

end Ipgate.Sshpeer
