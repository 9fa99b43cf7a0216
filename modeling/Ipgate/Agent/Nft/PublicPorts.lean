-- SUMMARY: Which ports the rendered port sets have, that their intervals are apart, and that the guard of the SSH port goes by them.
import Ipgate.Agent.Nft.Policy
import Ipgate.Agent.Config

/-!
# Public ports

The ranges of `config.json` and those of the clients go into one set for each
protocol, sorted and merged. The guard that keeps SSH from being opened by a
public port looks at the ranges themselves.
-/

namespace Ipgate

open Net Nft

/-! ## Rendered intervals -/

/-- The elements are intervals of ports in ascending order, with a port that is in none of
them between any two. -/
def Apart (es : List Elem) : Prop :=
  ∃ rs : List PortRange, es = rs.map (fun r => .ports r.start r.stop) ∧
    (∀ r ∈ rs, r.start ≤ r.stop) ∧ rs.Pairwise fun r r' => r.stop.toNat + 1 < r'.start.toNat

/-- The set of the table with the name `n` is a set of intervals apart, of exactly the ports
that are `open_`. -/
def HasPorts (t : Table SetName) (n : SetName) (open_ : UInt16 → Prop) : Prop :=
  ∃ s, t.sets.filter (fun s => s.name = n) = [s] ∧ Apart s.elements ∧
    ∀ port, s.elements.any (·.hasPort port) = true ↔ open_ port

variable {ports : List PortRange} {port : UInt16}

theorem portElems_apart (h : ∀ r ∈ ports, r.isValid) : Apart (portElems ports) := by
  have hvalid : ∀ r ∈ ports, PortRange.spans.lo r ≤ PortRange.spans.hi r :=
    fun r hr => UInt16.le_iff_toNat_le.mp (of_decide_eq_true (h r hr))
  refine ⟨mergePorts ports, rfl, fun r hr => ?_, PortRange.spans.merge_gap ports⟩
  exact UInt16.le_iff_toNat_le.mpr (PortRange.spans.merge_nonempty hvalid hr)

section Rendered

variable {ruleset : RulesetConfig} {entries : List Entry} {now : DateTime}

theorem rulesetTable_publicTcp (h : ∀ r ∈ ruleset.publicTcp, r.isValid) :
    HasPorts (rulesetTable ruleset entries now) .publicTcp fun port => ∃ r ∈ ruleset.publicTcp, r.contains port := by
  refine ⟨⟨.publicTcp, .inetService, [.interval], portElems ruleset.publicTcp⟩, ?_, portElems_apart h,
    fun port => any_portElems⟩
  cases hk : ruleset.knock.isSome <;> simp [rulesetTable, hk]

theorem rulesetTable_publicUdp (h : ∀ r ∈ ruleset.publicUdp, r.isValid) :
    HasPorts (rulesetTable ruleset entries now) .publicUdp fun port => ∃ r ∈ ruleset.publicUdp, r.contains port := by
  refine ⟨⟨.publicUdp, .inetService, [.interval], portElems ruleset.publicUdp⟩, ?_, portElems_apart h,
    fun port => any_portElems⟩
  cases hk : ruleset.knock.isSome <;> simp [rulesetTable, hk]

theorem HasPorts.congr {t : Table SetName} {n : SetName} {p q : UInt16 → Prop} (h : HasPorts t n p)
    (hpq : ∀ port, p port ↔ q port) : HasPorts t n q := by
  obtain ⟨s, hname, hapart, hports⟩ := h
  exact ⟨s, hname, hapart, fun port => (hports port).trans (hpq port)⟩

theorem HasPorts.exists_iff {t : Table SetName} {n : SetName} {open_ : UInt16 → Prop} (h : HasPorts t n open_) :
    (∃ s ∈ t.sets, s.name = n ∧ s.elements.any (·.hasPort port)) ↔ open_ port := by
  obtain ⟨s, hname, -, hports⟩ := h
  have hmem (s' : SetDef SetName) : s' ∈ t.sets ∧ s'.name = n ↔ s' = s := by
    have hiff : s' ∈ t.sets.filter (fun s => s.name = n) ↔ s' = s := by rw [hname, List.mem_singleton]
    simpa using hiff
  simp only [← and_assoc, hmem, exists_eq_left, hports]

end Rendered

/-! ## Where the ranges come from -/

section Sources

variable {cfg : AgentConfig} {flags : RulesetFlags}

/-- The range of some stored public port of one of the protocols has the port. -/
def Stored (flags : RulesetFlags) (protos : List ForwardProto) (port : UInt16) : Prop :=
  ∃ p ∈ flags.publicPorts, p.proto ∈ protos ∧ p.ports.contains port

/-- The ranges of the file and those of the stored ports whose protocol is not `other`. -/
theorem contains_append_stored {own : List PortRange} {other : ForwardProto} {protos : List ForwardProto}
    (hproto : ∀ proto : ForwardProto, proto ≠ other ↔ proto ∈ protos) :
    (∃ r ∈ own ++ (flags.publicPorts.filter fun p => p.proto ≠ other).map PublicPort.ports, r.contains port) ↔
      (∃ r ∈ own, r.contains port) ∨ Stored flags protos port := by
  simp only [List.mem_append, or_and_right, exists_or]
  refine or_congr_right ?_
  constructor
  · intro h
    obtain ⟨r, hr, hport⟩ := h
    obtain ⟨p, hp, rfl⟩ := List.mem_map.mp hr
    obtain ⟨hstored, hother⟩ := List.mem_filter.mp hp
    exact ⟨p, hstored, (hproto p.proto).mp (of_decide_eq_true hother), hport⟩
  · intro h
    obtain ⟨p, hstored, hin, hport⟩ := h
    exact ⟨p.ports, List.mem_map_of_mem (List.mem_filter.mpr ⟨hstored, decide_eq_true ((hproto p.proto).mpr hin)⟩), hport⟩

theorem rulesetWith_publicTcp : (∃ r ∈ (cfg.rulesetWith flags).publicTcp, r.contains port) ↔
    (∃ r ∈ cfg.publicTcp, r.contains port) ∨ Stored flags [.tcp, .both] port :=
  contains_append_stored fun proto => by cases proto <;> simp

theorem rulesetWith_publicUdp : (∃ r ∈ (cfg.rulesetWith flags).publicUdp, r.contains port) ↔
    (∃ r ∈ cfg.publicUdp, r.contains port) ∨ Stored flags [.udp, .both] port :=
  contains_append_stored fun proto => by cases proto <;> simp

end Sources

/-! ## The sets and the guard -/

/-- Where all ranges are valid, each set has the ports of the ranges of its protocol, from
the file and from clients, and no others, in intervals that are apart. The guard finds a
public port over the SSH port exactly when the set for TCP has the SSH port. -/
theorem rulesetWith_ports (cfg : AgentConfig) (flags : RulesetFlags) (entries : List Entry) (now : DateTime)
    (hfile : ∀ r ∈ cfg.publicTcp ++ cfg.publicUdp, r.isValid)
    (hclients : ∀ p ∈ flags.publicPorts, p.ports.isValid) :
    let t := rulesetTable (cfg.rulesetWith flags) entries now
    renderApply (cfg.rulesetWith flags) entries now = t.script ∧
      HasPorts t .publicTcp (fun port =>
        (∃ r ∈ cfg.publicTcp, r.contains port) ∨ Stored flags [.tcp, .both] port) ∧
      HasPorts t .publicUdp (fun port =>
        (∃ r ∈ cfg.publicUdp, r.contains port) ∨ Stored flags [.udp, .both] port) ∧
      ((cfg.publicPortCoveringSsh flags).isSome ↔
        ∃ s ∈ t.sets, s.name = .publicTcp ∧ s.elements.any (·.hasPort cfg.sshPort)) := by
  intro t
  obtain ⟨hfileTcp, hfileUdp⟩ := List.forall_mem_append.mp hfile
  have hvalidTcp : ∀ r ∈ (cfg.rulesetWith flags).publicTcp, r.isValid := by
    refine List.forall_mem_append.mpr ⟨hfileTcp, List.forall_mem_map.mpr fun p hp => ?_⟩
    exact hclients p (List.mem_of_mem_filter hp)
  have hvalidUdp : ∀ r ∈ (cfg.rulesetWith flags).publicUdp, r.isValid := by
    refine List.forall_mem_append.mpr ⟨hfileUdp, List.forall_mem_map.mpr fun p hp => ?_⟩
    exact hclients p (List.mem_of_mem_filter hp)
  have htcp : HasPorts t .publicTcp fun port => ∃ r ∈ (cfg.rulesetWith flags).publicTcp, r.contains port :=
    rulesetTable_publicTcp hvalidTcp
  have hudp : HasPorts t .publicUdp fun port => ∃ r ∈ (cfg.rulesetWith flags).publicUdp, r.contains port :=
    rulesetTable_publicUdp hvalidUdp
  refine ⟨renderApply_eq_script _ entries now, htcp.congr fun _ => rulesetWith_publicTcp,
    hudp.congr fun _ => rulesetWith_publicUdp, ?_⟩
  -- both sides say that some range of TCP has the SSH port
  rw [htcp.exists_iff, ← not_iff_not, Bool.not_eq_true, Option.isSome_eq_false_iff, Option.isNone_iff_eq_none,
    publicPortCoveringSsh_eq_none_iff]
  simp

/-- Ranges that touch, that lie in one another and that end at the last port. -/
theorem rulesetWith_ports_overlapping :
    let cfg : AgentConfig := ⟨19186, 22, [⟨8000, 8010⟩, ⟨20, 30⟩], [⟨65535, 65535⟩], none⟩
    let flags : RulesetFlags := ⟨true, false, [⟨.both, ⟨8011, 8020⟩, "", false⟩, ⟨.tcp, ⟨8002, 8003⟩, "", false⟩]⟩
    let t := rulesetTable (cfg.rulesetWith flags) [] 0
    HasPorts t .publicTcp (fun port => (∃ r ∈ cfg.publicTcp, r.contains port) ∨ Stored flags [.tcp, .both] port) ∧
      ((cfg.publicPortCoveringSsh flags).isSome ↔
        ∃ s ∈ t.sets, s.name = .publicTcp ∧ s.elements.any (·.hasPort cfg.sshPort)) :=
  have h := rulesetWith_ports ⟨19186, 22, [⟨8000, 8010⟩, ⟨20, 30⟩], [⟨65535, 65535⟩], none⟩
    ⟨true, false, [⟨.both, ⟨8011, 8020⟩, "", false⟩, ⟨.tcp, ⟨8002, 8003⟩, "", false⟩]⟩ [] 0
    (AgentConfig.publicRanges_isValid rfl) (by decide)
  ⟨h.2.1, h.2.2.2⟩

end Ipgate
