-- SUMMARY: The ruleset configuration of the protocol crate: port ranges, public ports, knock parameters.
import Ipgate.Proto.Basic

/-!
# Ruleset configuration

What the agent renders into the `inet ipgate` table, apart from the allowlist.
-/

namespace Ipgate

/-- The SSH port if the configuration names none. -/
def DEFAULT_SSH_PORT : UInt16 := 22

/-- How long a knock admits its source, in seconds. -/
def KNOCK_TTL_SECS : Nat := 60

/-! ## Ports -/

/-- A closed range of ports. Nothing keeps `start` below `stop`. -/
structure PortRange where
  start : UInt16
  stop : UInt16
  deriving DecidableEq

namespace PortRange

def single (port : UInt16) : PortRange := ⟨port, port⟩

def contains (r : PortRange) (port : UInt16) : Bool := r.start ≤ port && port ≤ r.stop

def isValid (r : PortRange) : Bool := r.start ≤ r.stop

def overlaps (r other : PortRange) : Bool := r.start ≤ other.stop && other.start ≤ r.stop

theorem contains_iff {r : PortRange} {port : UInt16} :
    r.contains port ↔ r.start.toNat ≤ port.toNat ∧ port.toNat ≤ r.stop.toNat := by
  simp [contains, UInt16.le_iff_toNat_le]

end PortRange

inductive ForwardProto where
  | tcp
  | udp
  | both
  deriving DecidableEq

/-- A port open to the whole world. -/
structure PublicPort where
  proto : ForwardProto
  ports : PortRange
  note : String
  /-- It comes from `config.json` and no client can remove it. -/
  fromConfig : Bool
  deriving DecidableEq

structure PublicPortRequest where
  proto : ForwardProto
  ports : PortRange
  note : String
  deriving DecidableEq

/-- The addresses under which the host appears outside, as far as they were found. -/
structure EgressIp where
  ipv4 : Option (BitVec 32)
  ipv6 : Option (BitVec 128)
  deriving DecidableEq

/-! ## The configuration -/

/-- A UDP packet to `port` whose payload starts with `token` admits its source to SSH. -/
structure SshKnock where
  port : UInt16
  token : Vector UInt8 16
  deriving DecidableEq

structure RulesetConfig where
  sshPort : UInt16
  sshAllowlistOnly : Bool
  sshKnock : Option SshKnock
  forwardAllowlistOnly : Bool
  publicTcp : List PortRange
  publicUdp : List PortRange
  deriving DecidableEq

/-- SSH for everybody, and nothing else. -/
def RulesetConfig.default : RulesetConfig where
  sshPort := DEFAULT_SSH_PORT
  sshAllowlistOnly := false
  sshKnock := none
  forwardAllowlistOnly := false
  publicTcp := []
  publicUdp := []

/-- The knock rules to render: only when SSH is for the allowlist and there are parameters. -/
def RulesetConfig.knock (cfg : RulesetConfig) : Option SshKnock :=
  cfg.sshKnock.filter fun _ => cfg.sshAllowlistOnly

theorem RulesetConfig.knock_of_open {cfg : RulesetConfig} (h : cfg.sshAllowlistOnly = false) :
    cfg.knock = none := by
  simp [knock, h]

theorem RulesetConfig.knock_of_closed {cfg : RulesetConfig} (h : cfg.sshAllowlistOnly = true) :
    cfg.knock = cfg.sshKnock := by
  cases hk : cfg.sshKnock <;> simp [knock, h, hk]

end Ipgate
