-- SUMMARY: The rendered ruleset: its text as the agent writes it, the table it describes, and that the text is that table's script.
import Ipgate.Lib.Nft
import Ipgate.Lib.Spans
import Ipgate.Proto.Ruleset

/-!
# Rendering the ruleset

`renderApply` builds the text the agent feeds to `nft -f`, piece by piece as the
source does. `rulesetTable` is the table the text describes, with its sets,
chains and rules as values that can be evaluated. `renderApply_eq_script` says
that the text is the script of that table.
-/

namespace Ipgate

open Net Nft

/-! ## Set elements -/

/-- The sets of the table. -/
inductive SetName where
  | allow4
  | allow6
  | publicTcp
  | publicUdp
  | knock4
  | knock6
  deriving DecidableEq

def SetName.text : SetName → String
  | .allow4 => "allow4"
  | .allow6 => "allow6"
  | .publicTcp => "public_tcp"
  | .publicUdp => "public_udp"
  | .knock4 => "knock4"
  | .knock6 => "knock6"

instance : ToString SetName := ⟨SetName.text⟩

/-- The set of a family the targets go into. -/
def allowSet : Family → SetName
  | .ipv4 => .allow4
  | .ipv6 => .allow6

/-- The set of a family that knocks are recorded in. -/
def knockSet : Family → SetName
  | .ipv4 => .knock4
  | .ipv6 => .knock6

def netFamily : IpNet → Family
  | .v4 _ => .ipv4
  | .v6 _ => .ipv6

/-- One set element: the network, with the seconds left if it expires. -/
def elementToken (target : IpNet) (expiresAt : Option DateTime) (now : DateTime) : String :=
  match expiresAt with
  | some t => target.toString ++ " timeout " ++ toString (max (numSeconds (t - now)) 1) ++ "s"
  | none => target.toString

/-- The unexpired entries whose target is of one family. -/
def activeOf (f : Family) (entries : List Entry) (now : DateTime) : List Entry :=
  entries.filter fun e => !e.isExpired now && decide (netFamily e.target = f)

def PortRange.spans : Spans.Ops PortRange where
  lo r := r.start.toNat
  hi r := r.stop.toNat
  join last r := { last with stop := max last.stop r.stop }
  lo_join _ _ := rfl
  hi_join a b := by
    simp only [Nat.max_def, ← UInt16.le_iff_toNat_le]
    exact apply_ite UInt16.toNat ..

/-- Sort the ranges and merge those that meet or touch: `nft` refuses overlapping
elements inline. -/
def mergePorts (ports : List PortRange) : List PortRange := PortRange.spans.merge ports

def portToken (p : PortRange) : String :=
  if p.start = p.stop then toString p.start else toString p.start ++ "-" ++ toString p.stop

def renderPorts (ports : List PortRange) : String :=
  joinWith ", " ((mergePorts ports).map portToken)

/-- A port is in a merged range exactly when it was in one before. -/
theorem mem_mergePorts {ports : List PortRange} {port : UInt16} :
    (∃ r ∈ mergePorts ports, r.contains port) ↔ ∃ r ∈ ports, r.contains port := by
  simp only [PortRange.contains_iff]
  exact PortRange.spans.covers_merge (x := port.toNat)

/-! ## The text -/

def table : String := "inet ipgate"

/-- A set definition, with its elements inline. -/
def setDef (name typ flags elements : String) : String :=
  if elements = "" then
    "    set " ++ name ++ " \x7b type " ++ typ ++ "; flags " ++ flags ++ "; \x7d\n"
  else
    "    set " ++ name ++ " \x7b type " ++ typ ++ "; flags " ++ flags ++ "; elements = \x7b " ++
      elements ++ " \x7d \x7d\n"

/-- ICMPv6 without which IPv6 does not work, accepted from every source. -/
def ICMPV6_INFRA_TYPES : String :=
  "nd-neighbor-solicit, nd-neighbor-advert, nd-router-solicit, " ++
    "nd-router-advert, destination-unreachable, packet-too-big, " ++
    "time-exceeded, parameter-problem"

/-- ICMP errors, accepted from every source. -/
def ICMP_INFRA_TYPES : String :=
  "destination-unreachable, time-exceeded, parameter-problem"

/-- The knock rules write the source into a set and drop the packet. -/
def renderKnock (k : SshKnock) : String :=
  let m := "udp dport " ++ toString k.port ++ " @th,64,128 0x" ++ Text.toHex k.token.toList
  indented ("meta nfproto ipv4 " ++ m ++ " update @knock4 \x7b ip saddr timeout " ++
    toString KNOCK_TTL_SECS ++ "s \x7d drop") ++
  indented ("meta nfproto ipv6 " ++ m ++ " update @knock6 \x7b ip6 saddr timeout " ++
    toString KNOCK_TTL_SECS ++ "s \x7d drop")

/-- SSH is open, or for the allowlist and for sources that have knocked. -/
def renderSsh (cfg : RulesetConfig) : String :=
  if cfg.sshAllowlistOnly then
    indented ("# ssh dport " ++ toString cfg.sshPort ++ " 仅名单可连（见末尾 saddr 规则）") ++
    if cfg.knock.isSome then
      indented ("tcp dport " ++ toString cfg.sshPort ++ " ip saddr @knock4 accept") ++
      indented ("tcp dport " ++ toString cfg.sshPort ++ " ip6 saddr @knock6 accept")
    else ""
  else indented ("tcp dport " ++ toString cfg.sshPort ++ " accept")

/-- The forward gate: a new DNATed connection needs an allowlisted source or a
public port. It names no forward. -/
def renderForwardGate : String :=
  let dnatNew := "ct state new ct status dnat"
  "    chain forward \x7b\n" ++
  indented "type filter hook forward priority -10; policy accept;" ++
  indented "ct state established,related accept" ++
  indented (dnatNew ++ " ip saddr @allow4 accept") ++
  indented (dnatNew ++ " ip6 saddr @allow6 accept") ++
  indented (dnatNew ++ " meta l4proto tcp ct original proto-dst @public_tcp accept") ++
  indented (dnatNew ++ " meta l4proto udp ct original proto-dst @public_udp accept") ++
  indented (dnatNew ++ " counter drop") ++
  "    \x7d\n"

/-- The whole transaction: make sure the table is there, delete it, build it anew. -/
def renderApply (cfg : RulesetConfig) (entries : List Entry) (now : DateTime) : String :=
  let tokens (f : Family) :=
    (activeOf f entries now).map fun e => elementToken e.target e.expiresAt now
  "table " ++ table ++ "\n" ++
  "delete table " ++ table ++ "\n" ++
  "table " ++ table ++ " \x7b\n" ++
  setDef "allow4" "ipv4_addr" "interval, timeout" (joinWith ", " (tokens .ipv4)) ++
  setDef "allow6" "ipv6_addr" "interval, timeout" (joinWith ", " (tokens .ipv6)) ++
  setDef "public_tcp" "inet_service" "interval" (renderPorts cfg.publicTcp) ++
  setDef "public_udp" "inet_service" "interval" (renderPorts cfg.publicUdp) ++
  (if cfg.knock.isSome then
    setDef "knock4" "ipv4_addr" "dynamic, timeout" "" ++
    setDef "knock6" "ipv6_addr" "dynamic, timeout" ""
  else "") ++
  "    chain input \x7b\n" ++
  indented "type filter hook input priority 0; policy drop;" ++
  indented "ct state established,related accept" ++
  indented "ct state invalid drop" ++
  indented "iif lo accept" ++
  indented ("ip6 nexthdr icmpv6 icmpv6 type \x7b " ++ ICMPV6_INFRA_TYPES ++ " \x7d accept") ++
  indented ("ip protocol icmp icmp type \x7b " ++ ICMP_INFRA_TYPES ++ " \x7d accept") ++
  (match cfg.knock with
    | some k => renderKnock k
    | none => "") ++
  renderSsh cfg ++
  indented "tcp dport @public_tcp accept" ++
  indented "udp dport @public_udp accept" ++
  indented "ip saddr @allow4 accept" ++
  indented "ip6 saddr @allow6 accept" ++
  "    \x7d\n" ++
  (if cfg.forwardAllowlistOnly then renderForwardGate else "") ++
  "\x7d\n"

/-- Put one entry into its set, without touching the rest of the table. -/
def addElementScript (target : IpNet) (expiresAt : Option DateTime) (now : DateTime) : String :=
  "add element " ++ table ++ " " ++ (allowSet (netFamily target)).text ++ " \x7b " ++
    elementToken target expiresAt now ++ " \x7d"

/-- Take one target out of its set. -/
def deleteElementScript (target : IpNet) : String :=
  "delete element " ++ table ++ " " ++ (allowSet (netFamily target)).text ++ " \x7b " ++
    target.toString ++ " \x7d"

/-! ## The table -/

/-- The elements of an allow set: one for each unexpired entry of its family. -/
def allowElems (f : Family) (entries : List Entry) (now : DateTime) : List Elem :=
  (activeOf f entries now).map fun e =>
    .net e.target (e.expiresAt.map fun t => (max (numSeconds (t - now)) 1).toNat)

def portElems (ports : List PortRange) : List Elem :=
  (mergePorts ports).map fun r => .ports r.start r.stop

def ICMPV6_INFRA : List IcmpType :=
  [⟨"nd-neighbor-solicit", 135⟩, ⟨"nd-neighbor-advert", 136⟩, ⟨"nd-router-solicit", 133⟩,
    ⟨"nd-router-advert", 134⟩, ⟨"destination-unreachable", 1⟩, ⟨"packet-too-big", 2⟩,
    ⟨"time-exceeded", 3⟩, ⟨"parameter-problem", 4⟩]

def ICMP_INFRA : List IcmpType :=
  [⟨"destination-unreachable", 3⟩, ⟨"time-exceeded", 11⟩, ⟨"parameter-problem", 12⟩]

def acceptLines (mss : List (List (Match SetName))) : List (Line SetName) :=
  mss.map fun ms => .rule (.accept ms)

/-- What is accepted from every source. -/
def openAccepts : List (List (Match SetName)) :=
  [[.iifLo], [.icmpType .ipv6 ICMPV6_INFRA], [.icmpType .ipv4 ICMP_INFRA]]

/-- The rules no setting changes: connection state, loopback, infrastructure ICMP. -/
def baseLines : List (Line SetName) :=
  .rule (.accept [.ctState [.established, .related]]) ::
  .rule ⟨[.ctState [.invalid]], [], .drop⟩ ::
  acceptLines openAccepts

/-- What a knock of one family looks like, and what it leaves. -/
def knockRule (k : SshKnock) (f : Family) : Rule SetName :=
  ⟨[.nfproto f, .dport .udp k.port, .th 64 k.token.toList],
    [.updateSaddr f (knockSet f) KNOCK_TTL_SECS], .drop⟩

def knockLines (cfg : RulesetConfig) : List (Line SetName) :=
  match cfg.knock with
  | some k => [.rule (knockRule k .ipv4), .rule (knockRule k .ipv6)]
  | none => []

/-- The conditions under which the rules for the SSH port accept. -/
def sshAccepts (cfg : RulesetConfig) : List (List (Match SetName)) :=
  if cfg.sshAllowlistOnly then
    if cfg.knock.isSome then
      [[.dport .tcp cfg.sshPort, .saddrIn .ipv4 .knock4],
        [.dport .tcp cfg.sshPort, .saddrIn .ipv6 .knock6]]
    else []
  else [[.dport .tcp cfg.sshPort]]

def sshComment (cfg : RulesetConfig) : List (Line SetName) :=
  if cfg.sshAllowlistOnly then
    [.comment ("ssh dport " ++ toString cfg.sshPort ++ " 仅名单可连（见末尾 saddr 规则）")]
  else []

/-- The conditions at the end of the chain. -/
def tailAccepts : List (List (Match SetName)) :=
  [[.dportIn .tcp .publicTcp], [.dportIn .udp .publicUdp],
    [.saddrIn .ipv4 .allow4], [.saddrIn .ipv6 .allow6]]

def inputChain (cfg : RulesetConfig) : Chain SetName where
  name := "input"
  hook := "input"
  priority := 0
  policy := .drop
  lines := baseLines ++ knockLines cfg ++ sshComment cfg ++ acceptLines (sshAccepts cfg ++ tailAccepts)

def forwardChain : Chain SetName where
  name := "forward"
  hook := "forward"
  priority := -10
  policy := .accept
  lines :=
    let dnatNew : List (Match SetName) := [.ctState [.new], .ctStatusDnat]
    acceptLines [[.ctState [.established, .related]],
      dnatNew ++ [.saddrIn .ipv4 .allow4], dnatNew ++ [.saddrIn .ipv6 .allow6],
      dnatNew ++ [.l4proto .tcp, .ctOrigDport .publicTcp],
      dnatNew ++ [.l4proto .udp, .ctOrigDport .publicUdp]] ++
    [.rule ⟨dnatNew, [.counter], .drop⟩]

def rulesetTable (cfg : RulesetConfig) (entries : List Entry) (now : DateTime) : Table SetName where
  name := table
  sets :=
    [⟨.allow4, .ipv4Addr, [.interval, .timeout], allowElems .ipv4 entries now⟩,
      ⟨.allow6, .ipv6Addr, [.interval, .timeout], allowElems .ipv6 entries now⟩,
      ⟨.publicTcp, .inetService, [.interval], portElems cfg.publicTcp⟩,
      ⟨.publicUdp, .inetService, [.interval], portElems cfg.publicUdp⟩] ++
    if cfg.knock.isSome then
      [⟨.knock4, .ipv4Addr, [.dynamic, .timeout], []⟩,
        ⟨.knock6, .ipv6Addr, [.dynamic, .timeout], []⟩]
    else []
  chains := inputChain cfg :: if cfg.forwardAllowlistOnly then [forwardChain] else []

/-! ## The text is the script of the table -/

section Text

attribute [local simp] Line.text Rule.text Rule.accept Match.text Stmt.text Verdict.text
  Family.nfproto Family.header L4.text SetName.text acceptLines joinWith indented

@[simp] theorem SetName.toString_eq (s : SetName) : toString s = s.text := rfl

theorem setDef_text (s : SetDef SetName) :
    s.text = setDef s.name.text s.type.text (joinWith ", " (s.flags.map SetFlag.text))
      (joinWith ", " (s.elements.map Elem.text)) := by
  rw [SetDef.text, setDef]
  split <;> simp [ToString.toString, String.append_assoc]

theorem elementToken_text (e : Entry) (now : DateTime) :
    Elem.text (.net e.target (e.expiresAt.map fun t => (max (numSeconds (t - now)) 1).toNat)) =
      elementToken e.target e.expiresAt now := by
  cases h : e.expiresAt with
  | none => rfl
  | some t =>
    have hpos : 0 ≤ max (numSeconds (t - now)) 1 := by omega
    obtain ⟨n, hn⟩ := Int.eq_ofNat_of_zero_le hpos
    simp only [elementToken, Option.map_some, Elem.text, hn]
    rfl

theorem allowElems_text (f : Family) (entries : List Entry) (now : DateTime) :
    (allowElems f entries now).map Elem.text =
      (activeOf f entries now).map fun e => elementToken e.target e.expiresAt now := by
  simp only [allowElems, List.map_map]
  exact List.map_congr_left fun e _ => elementToken_text e now

theorem portElems_text (ports : List PortRange) :
    joinWith ", " ((portElems ports).map Elem.text) = renderPorts ports := by
  simp only [portElems, List.map_map]
  rfl

/-- The set definitions, in the order of the text. -/
theorem sets_text (cfg : RulesetConfig) (entries : List Entry) (now : DateTime) :
    String.join ((rulesetTable cfg entries now).sets.map SetDef.text) =
      setDef "allow4" "ipv4_addr" "interval, timeout" (joinWith ", "
        ((activeOf .ipv4 entries now).map fun e => elementToken e.target e.expiresAt now)) ++
      setDef "allow6" "ipv6_addr" "interval, timeout" (joinWith ", "
        ((activeOf .ipv6 entries now).map fun e => elementToken e.target e.expiresAt now)) ++
      setDef "public_tcp" "inet_service" "interval" (renderPorts cfg.publicTcp) ++
      setDef "public_udp" "inet_service" "interval" (renderPorts cfg.publicUdp) ++
      if cfg.knock.isSome then
        setDef "knock4" "ipv4_addr" "dynamic, timeout" "" ++
        setDef "knock6" "ipv6_addr" "dynamic, timeout" ""
      else "" := by
  unfold rulesetTable
  cases cfg.knock.isSome <;>
    simp [setDef_text, allowElems_text, portElems_text, SetType.text, SetFlag.text, String.append_assoc]

theorem baseLines_text : String.join (baseLines.map Line.text) =
    indented "ct state established,related accept" ++
    indented "ct state invalid drop" ++
    indented "iif lo accept" ++
    indented ("ip6 nexthdr icmpv6 icmpv6 type \x7b " ++ ICMPV6_INFRA_TYPES ++ " \x7d accept") ++
    indented ("ip protocol icmp icmp type \x7b " ++ ICMP_INFRA_TYPES ++ " \x7d accept") := by
  decide +kernel

private theorem th_digits :
    Nat.toDigits 10 64 = ['6', '4'] ∧ Nat.toDigits 10 128 = ['1', '2', '8'] := by
  decide

theorem knockLines_text (cfg : RulesetConfig) :
    String.join ((knockLines cfg).map Line.text) =
      match cfg.knock with
      | some k => renderKnock k
      | none => "" := by
  cases h : cfg.knock with
  | none => simp [knockLines, h]
  | some k =>
    simp only [knockLines, h, renderKnock, List.map_cons, List.map_nil, String.join_cons,
      String.join_nil, String.append_empty, Line.text]
    congr 2
    · simp [knockRule, knockSet, th_digits, ← String.toList_inj]
    · simp [knockRule, knockSet, th_digits, ← String.toList_inj]

theorem sshLines_text (cfg : RulesetConfig) :
    String.join ((sshComment cfg).map Line.text) ++
      String.join ((acceptLines (sshAccepts cfg)).map Line.text) = renderSsh cfg := by
  unfold sshComment sshAccepts renderSsh
  split
  · split
    · simp [← String.toList_inj]
    · simp [← String.toList_inj]
  · simp [← String.toList_inj]

theorem tailLines_text : String.join ((acceptLines tailAccepts).map Line.text) =
    indented "tcp dport @public_tcp accept" ++ indented "udp dport @public_udp accept" ++
      indented "ip saddr @allow4 accept" ++ indented "ip6 saddr @allow6 accept" := by
  decide +kernel

end Text

theorem inputChain_text (cfg : RulesetConfig) :
    (inputChain cfg).text = "    chain input \x7b\n" ++
      indented "type filter hook input priority 0; policy drop;" ++
      String.join (baseLines.map Line.text) ++ String.join ((knockLines cfg).map Line.text) ++
      renderSsh cfg ++ String.join ((acceptLines tailAccepts).map Line.text) ++ "    \x7d\n" := by
  have hhead : "    chain " ++ "input" ++ " \x7b\n" ++
      indented ("type filter hook " ++ "input" ++ " priority " ++ toString (0 : Int) ++
        "; policy " ++ Verdict.drop.text ++ ";") =
      "    chain input \x7b\n" ++ indented "type filter hook input priority 0; policy drop;" := by
    decide +kernel
  unfold Chain.text inputChain
  rw [hhead, ← sshLines_text]
  simp only [acceptLines, List.map_append, String.join_append, String.append_assoc]

theorem forwardChain_text : forwardChain.text = renderForwardGate := by
  decide +kernel

/-- The text the agent writes is the script of the table. -/
theorem renderApply_eq_script (cfg : RulesetConfig) (entries : List Entry) (now : DateTime) :
    renderApply cfg entries now = (rulesetTable cfg entries now).script := by
  have hchains : String.join ((rulesetTable cfg entries now).chains.map Chain.text) =
      (inputChain cfg).text ++ if cfg.forwardAllowlistOnly then renderForwardGate else "" := by
    unfold rulesetTable
    cases cfg.forwardAllowlistOnly <;> simp [forwardChain_text]
  unfold renderApply Table.script
  rw [hchains, sets_text, inputChain_text, baseLines_text,
    knockLines_text, tailLines_text]
  simp only [rulesetTable, String.append_assoc]

end Ipgate
