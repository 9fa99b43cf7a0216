-- SUMMARY: Port forwards of the protocol crate: rules, requests, and the checks made on them.
import Ipgate.Proto.Ruleset

/-!
# Port forwards

A forward sends what arrives at a local port range to a host, given as an IPv4
literal or a name. The checks on interface names and targets are the ones the
agent repeats before it renders a rule.
-/

namespace Ipgate

open Net

/-- Where the replies of a forward appear to come from. -/
inductive ForwardSource where
  | auto
  | ip (ip : BitVec 32)
  deriving DecidableEq

structure ForwardRule where
  id : ForwardId
  proto : ForwardProto
  /-- `none`: the interface of the default route. -/
  iface : Option String
  listen : PortRange
  destHost : String
  destPort : PortRange
  source : ForwardSource
  note : String
  createdAt : DateTime
  createdBy : DeviceId
  deriving DecidableEq

/-- A request to add a forward or to change one. -/
structure AddForwardRequest where
  proto : ForwardProto
  iface : Option String
  listen : PortRange
  destHost : String
  destPort : PortRange
  source : ForwardSource
  note : String
  deriving DecidableEq

/-! ## Views -/

/-- A rule as the client sees it. -/
structure ForwardView where
  rule : ForwardRule
  resolvedIp : Option (BitVec 32)
  /-- The rule has taken effect in the kernel. -/
  active : Bool
  deriving DecidableEq

/-- Where a forward comes from: the agent itself, or the dnat tool. -/
inductive ForwardOrigin where
  | ipgate
  | dnat
  deriving DecidableEq

structure ForwardCaps where
  canEdit : Bool
  canDelete : Bool
  canMigrate : Bool
  deriving DecidableEq

/-- A forward of either origin, in the list of all of them. -/
structure UnifiedForwardView where
  origin : ForwardOrigin
  proto : ForwardProto
  iface : Option String
  listen : PortRange
  destHost : String
  destPort : PortRange
  source : ForwardSource
  note : String
  resolvedIp : Option (BitVec 32)
  /-- The forward has taken effect in the kernel. -/
  active : Bool
  caps : ForwardCaps
  /-- A forward of the other origin listens on ports of the same interface. -/
  conflict : Bool
  id : Option ForwardId
  dnatKey : Option String
  deriving DecidableEq

structure UnifiedForwardList where
  forwards : List UnifiedForwardView
  revision : Nat
  deriving DecidableEq

/-- An interface of the host, for a client to choose from. -/
structure InterfaceInfo where
  name : String
  ipv4 : List (BitVec 32)
  isDefaultRoute : Bool
  deriving DecidableEq

/-! ## Checks -/

/-- Characters an interface name may have: none that could end the string in a script. -/
def validIfaceChar (c : Char) : Bool := c.isAlphanum || c == '.' || c == '_' || c == '-'

/-- An interface name: not empty, at most 15 bytes, of harmless characters. -/
def validIfaceName (name : String) : Bool :=
  !name.isEmpty && name.utf8ByteSize ≤ 15 && name.toList.all validIfaceChar

/-- The byte of an IPv4 address, counted from the front. -/
def octet (ip : BitVec 32) (i : Nat) : Nat := ip.toNat / 256 ^ (3 - i) % 256

def ipv4 (a b c d : Nat) : BitVec 32 := BitVec.ofNat 32 (((a * 256 + b) * 256 + c) * 256 + d)

/-- Metadata endpoints outside of the link-local range. -/
def CLOUD_METADATA_IPS : List (BitVec 32) := [ipv4 100 100 100 200, ipv4 100 100 100 136]

/-- Why nothing may be forwarded to the address, if so. -/
def forbiddenForwardTarget (ip : BitVec 32) : Option String :=
  if ip ∈ CLOUD_METADATA_IPS then
    some "云元数据端点（阿里云 100.100.100.200，可窃取 RAM/STS 凭证）"
  else if octet ip 0 = 127 then
    some "环回地址（会把本机管理面/本地服务暴露到公网）"
  else if octet ip 0 = 169 ∧ octet ip 1 = 254 then
    some "链路本地地址（含云元数据 169.254.169.254）"
  else if octet ip 0 = 0 then
    some "0.0.0.0/8（本网络，非法单播目标）"
  else if ip = ipv4 255 255 255 255 then
    some "广播地址"
  else if 224 ≤ octet ip 0 ∧ octet ip 0 ≤ 239 then
    some "组播地址"
  else none

/-- The ranges are valid, and the target is one port or as many as listen. -/
def validatePorts (listen dest : PortRange) : Except String Unit :=
  if !listen.isValid || !dest.isValid then
    .error "端口区间非法（start > end）"
  else if dest.start ≠ dest.stop ∧ listen.stop - listen.start ≠ dest.stop - dest.start then
    .error ("端口区间长度不一致：" ++ "监听 " ++ toString listen.start ++ "-" ++ toString listen.stop ++
      " vs 目标 " ++ toString dest.start ++ "-" ++ toString dest.stop)
  else .ok ()

theorem validatePorts_ok {listen dest : PortRange} {u : Unit} (h : validatePorts listen dest = .ok u) :
    listen.isValid = true ∧ dest.isValid = true ∧
      (dest.start = dest.stop ∨ listen.stop - listen.start = dest.stop - dest.start) := by
  unfold validatePorts at h
  split at h
  · cases h
  · next hvalid =>
    simp only [Bool.or_eq_true, Bool.not_eq_true', not_or, Bool.not_eq_false] at hvalid
    split at h
    · cases h
    · next hlength =>
      refine ⟨hvalid.1, hvalid.2, ?_⟩
      by_contra hboth
      exact hlength (not_or.mp hboth)

end Ipgate
