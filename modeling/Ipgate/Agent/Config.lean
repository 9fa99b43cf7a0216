-- SUMMARY: The agent's configuration file and the ruleset configuration made from it.
import Ipgate.Agent.Store

/-!
# Configuration

The fixed part of the agent's settings. The ruleset configuration joins it with
the run-time settings of the store.
-/

namespace Ipgate

structure AgentConfig where
  mgmtPort : UInt16
  sshPort : UInt16
  publicTcp : List PortRange
  publicUdp : List PortRange
  /-- Derived from the access key, not from the file. -/
  sshKnock : Option SshKnock
  deriving DecidableEq

namespace AgentConfig

def default : AgentConfig where
  mgmtPort := 19186
  sshPort := DEFAULT_SSH_PORT
  publicTcp := []
  publicUdp := []
  sshKnock := none

/-- The ports are not zero and the public ranges are valid. -/
def validate (cfg : AgentConfig) : Except String Unit :=
  if cfg.mgmtPort = 0 then .error "mgmt_port 不能为 0（Noise loopback 监听端口）"
  else if cfg.sshPort = 0 then
    .error "ssh_port 不能为 0（ruleset 靠它放行 SSH——唯一入口，置 0 会锁死自己）"
  else
    match (cfg.publicTcp ++ cfg.publicUdp).find? fun r => !r.isValid with
    | some r => .error ("非法端口区间: " ++ toString r.start ++ "-" ++ toString r.stop)
    | none => .ok ()

theorem default_validate : default.validate = .ok () := rfl

/-- A configuration that is accepted has valid public ranges. -/
theorem publicRanges_isValid {cfg : AgentConfig} (h : cfg.validate = .ok ()) :
    ∀ r ∈ cfg.publicTcp ++ cfg.publicUdp, r.isValid := by
  unfold validate at h
  split at h
  · cases h
  · split at h
    · cases h
    · cases hfind : (cfg.publicTcp ++ cfg.publicUdp).find? fun r => !r.isValid with
      | some r =>
        rw [hfind] at h
        cases h
      | none => simpa using List.find?_eq_none.mp hfind

/-- The configuration the service runs with: its knock parameters are those of the access key. -/
def withKnock (cfg : AgentConfig) (knock : SshKnock) : AgentConfig := { cfg with sshKnock := some knock }

/-- Public ports are those of the file and those of the clients. -/
def rulesetWith (cfg : AgentConfig) (flags : RulesetFlags) : RulesetConfig where
  sshPort := cfg.sshPort
  sshAllowlistOnly := flags.sshAllowlistOnly
  sshKnock := cfg.sshKnock
  forwardAllowlistOnly := flags.forwardAllowlistOnly
  publicTcp := cfg.publicTcp ++
    (flags.publicPorts.filter fun p => p.proto ≠ .udp).map PublicPort.ports
  publicUdp := cfg.publicUdp ++
    (flags.publicPorts.filter fun p => p.proto ≠ .tcp).map PublicPort.ports

/-- The public ports of the file, for display. -/
def configPublicPorts (cfg : AgentConfig) : List PublicPort :=
  cfg.publicTcp.map (fun r => ⟨.tcp, r, "", true⟩) ++ cfg.publicUdp.map fun r => ⟨.udp, r, "", true⟩

def coversSsh (cfg : AgentConfig) (proto : ForwardProto) (ports : PortRange) : Bool :=
  decide (proto ≠ .udp) && ports.contains cfg.sshPort

/-- A public TCP port that covers the SSH port, from the file or from a client. -/
def publicPortCoveringSsh (cfg : AgentConfig) (flags : RulesetFlags) : Option PublicPort :=
  (cfg.configPublicPorts ++ flags.publicPorts).find? fun p => cfg.coversSsh p.proto p.ports

end AgentConfig

variable {cfg : AgentConfig} {flags : RulesetFlags}

/-- A public port of the protocols TCP uses that does not cover the SSH port. -/
theorem coversSsh_eq_false_iff {p : PublicPort} : cfg.coversSsh p.proto p.ports = false ↔
    (p.proto ≠ .udp → p.ports.contains cfg.sshPort = false) := by
  simp [AgentConfig.coversSsh]

/-- Nothing covers the SSH port exactly when no range of the public TCP set does. -/
theorem publicPortCoveringSsh_eq_none_iff : cfg.publicPortCoveringSsh flags = none ↔
    ∀ r ∈ (cfg.rulesetWith flags).publicTcp, r.contains cfg.sshPort = false := by
  have hfile : (∀ p ∈ cfg.configPublicPorts, cfg.coversSsh p.proto p.ports = false) ↔
      ∀ r ∈ cfg.publicTcp, r.contains cfg.sshPort = false := by
    simp [AgentConfig.configPublicPorts, AgentConfig.coversSsh, or_imp, forall_and]
  have hclients : (∀ p ∈ flags.publicPorts, cfg.coversSsh p.proto p.ports = false) ↔
      ∀ r ∈ (flags.publicPorts.filter fun p => p.proto ≠ .udp).map PublicPort.ports,
        r.contains cfg.sshPort = false := by
    simp only [coversSsh_eq_false_iff, List.forall_mem_map, List.mem_filter, decide_eq_true_eq, and_imp]
  unfold AgentConfig.publicPortCoveringSsh
  rw [List.find?_eq_none]
  simp only [Bool.not_eq_true, List.forall_mem_append, AgentConfig.rulesetWith, hfile, hclients]

end Ipgate
