-- SUMMARY: nat.rs: the script of the NAT table, and which source address a forwarded connection gets.
import Ipgate.Agent.Forward
import Ipgate.Lib.NftNat

/-!
# The NAT table

`renderNatApply` builds the text the agent feeds to `nft -f`. `natTable` is the same
table with its chains and rules as values, and `renderNatApply_eq_script` says that the
text is its script.

A forward has three rules for each of its protocols: one that rewrites the destination,
one that rewrites the source, one that accepts the connection. The first is keyed by
interface and listening ports, the second by the destination alone.
-/

namespace Ipgate

open Net NftNat
open Nft (L4 CtState indented joinWith portsText)

/-! ## The text -/

def ForwardProto.l4Protos : ForwardProto → List L4
  | .tcp => [.tcp]
  | .udp => [.udp]
  | .both => [.tcp, .udp]

def natTableName : String := "ip ipgate_nat"

def dnatText (f : ResolvedForward) (proto : L4) : String :=
  "iifname \"" ++ f.iface ++ "\" " ++ proto.text ++ " dport " ++
    portsText f.listen.start f.listen.stop ++ " dnat to " ++ ipv4String f.remoteIp ++ ":" ++
    portsText f.destPort.start f.destPort.stop

def snatText (f : ResolvedForward) (proto : L4) : String :=
  "ip daddr " ++ ipv4String f.remoteIp ++ " " ++ proto.text ++ " dport " ++
    portsText f.destPort.start f.destPort.stop ++ " snat to " ++ ipv4String f.sourceIp

/-- The destination is the one that was rewritten. -/
def acceptText (f : ResolvedForward) (proto : L4) : String :=
  "iifname \"" ++ f.iface ++ "\" ip daddr " ++ ipv4String f.remoteIp ++ " " ++ proto.text ++
    " dport " ++ portsText f.destPort.start f.destPort.stop ++ " ct state new accept"

/-- A rule of each forward for each of its protocols. -/
def perProto {β : Type} (forwards : List ResolvedForward) (rule : ResolvedForward → L4 → β) :
    List β :=
  forwards.flatMap fun f => f.proto.l4Protos.map (rule f)

/-- The whole transaction: make sure the table is there, delete it, build it anew. -/
def renderNatApply (forwards : List ResolvedForward) : String :=
  let rules (text : ResolvedForward → L4 → String) :=
    String.join ((perProto forwards text).map indented)
  "table " ++ natTableName ++ "\n" ++
  "delete table " ++ natTableName ++ "\n" ++
  "table " ++ natTableName ++ " \x7b\n" ++
  "    chain prerouting \x7b\n" ++
  indented "type nat hook prerouting priority -90; policy accept;" ++
  rules dnatText ++
  "    \x7d\n" ++
  "    chain postrouting \x7b\n" ++
  indented "type nat hook postrouting priority 110; policy accept;" ++
  rules snatText ++
  "    \x7d\n" ++
  "    chain forward \x7b\n" ++
  indented "type filter hook forward priority 0; policy accept;" ++
  indented "ct state established,related accept" ++
  rules acceptText ++
  "    \x7d\n" ++
  "\x7d\n"

/-! ## The table -/

def dnatRule (f : ResolvedForward) (proto : L4) : Rule :=
  ⟨[.iifname f.iface, .dport proto f.listen.start f.listen.stop],
    .dnat f.remoteIp f.destPort.start f.destPort.stop⟩

def snatRule (f : ResolvedForward) (proto : L4) : Rule :=
  ⟨[.daddr f.remoteIp, .dport proto f.destPort.start f.destPort.stop], .snat f.sourceIp⟩

def acceptRule (f : ResolvedForward) (proto : L4) : Rule :=
  ⟨[.iifname f.iface, .daddr f.remoteIp, .dport proto f.destPort.start f.destPort.stop,
    .ctState [.new]], .accept⟩

def preroutingChain (forwards : List ResolvedForward) : Chain where
  name := "prerouting"
  type := .nat
  hook := "prerouting"
  priority := -90
  rules := perProto forwards dnatRule

def postroutingChain (forwards : List ResolvedForward) : Chain where
  name := "postrouting"
  type := .nat
  hook := "postrouting"
  priority := 110
  rules := perProto forwards snatRule

def natForwardChain (forwards : List ResolvedForward) : Chain where
  name := "forward"
  type := .filter
  hook := "forward"
  priority := 0
  rules := ⟨[.ctState [.established, .related]], .accept⟩ :: perProto forwards acceptRule

def natTable (forwards : List ResolvedForward) : Table where
  name := natTableName
  chains := [preroutingChain forwards, postroutingChain forwards, natForwardChain forwards]

theorem dnatRule_text (f : ResolvedForward) (proto : L4) :
    (dnatRule f proto).text = dnatText f proto := by
  have hquote : "\" " = "\"" ++ " " := rfl
  have hdnat : " dnat to " = " " ++ "dnat to " := rfl
  unfold dnatText
  rw [hquote, hdnat]
  simp only [Rule.text, dnatRule, List.map_cons, List.map_nil, List.cons_append, List.nil_append,
    joinWith, Match.text, Action.text, String.append_assoc]

theorem snatRule_text (f : ResolvedForward) (proto : L4) :
    (snatRule f proto).text = snatText f proto := by
  have hsnat : " snat to " = " " ++ "snat to " := rfl
  unfold snatText
  rw [hsnat]
  simp only [Rule.text, snatRule, List.map_cons, List.map_nil, List.cons_append, List.nil_append,
    joinWith, Match.text, Action.text, String.append_assoc]

theorem acceptRule_text (f : ResolvedForward) (proto : L4) :
    (acceptRule f proto).text = acceptText f proto := by
  have hdaddr : "\" ip daddr " = "\"" ++ (" " ++ "ip daddr ") := rfl
  have hstate : " ct state new accept" = " " ++ ("ct state " ++ ("new" ++ (" " ++ "accept"))) := rfl
  unfold acceptText
  rw [hdaddr, hstate]
  simp only [Rule.text, acceptRule, List.map_cons, List.map_nil, List.cons_append, List.nil_append,
    joinWith, Match.text, Action.text, CtState.text, String.append_assoc]

theorem perProto_text {rule : ResolvedForward → L4 → Rule} {text : ResolvedForward → L4 → String}
    (htext : ∀ f proto, (rule f proto).text = text f proto) (forwards : List ResolvedForward) :
    String.join ((perProto forwards rule).map fun r => indented r.text) =
      String.join ((perProto forwards text).map indented) := by
  unfold perProto
  rw [List.map_flatMap, List.map_flatMap]
  congr
  funext f
  simp [htext]

/-- The text the agent writes is the script of the table. -/
theorem renderNatApply_eq_script (forwards : List ResolvedForward) :
    renderNatApply forwards = (natTable forwards).script := by
  have hstateful : indented (Rule.text ⟨[.ctState [.established, .related]], .accept⟩) =
      indented "ct state established,related accept" := rfl
  have hprerouting : (preroutingChain forwards).text =
      "    chain prerouting \x7b\n" ++
        indented "type nat hook prerouting priority -90; policy accept;" ++
        String.join ((perProto forwards dnatText).map indented) ++ "    \x7d\n" := by
    rw [← perProto_text dnatRule_text]
    rfl
  have hpostrouting : (postroutingChain forwards).text =
      "    chain postrouting \x7b\n" ++
        indented "type nat hook postrouting priority 110; policy accept;" ++
        String.join ((perProto forwards snatText).map indented) ++ "    \x7d\n" := by
    rw [← perProto_text snatRule_text]
    rfl
  have hforward : (natForwardChain forwards).text =
      "    chain forward \x7b\n" ++
        indented "type filter hook forward priority 0; policy accept;" ++
        (indented "ct state established,related accept" ++
        String.join ((perProto forwards acceptText).map indented)) ++ "    \x7d\n" := by
    rw [← perProto_text acceptRule_text, ← hstateful, ← String.join_cons]
    rfl
  unfold renderNatApply Table.script
  simp only [natTable, List.map_cons, List.map_nil, String.join_cons, String.join_nil,
    hprerouting, hpostrouting, hforward, String.append_assoc, String.append_empty]

/-! ## Which forward acts on a packet -/

/-- The forward has rules for the protocol. -/
def ResolvedForward.carries (f : ResolvedForward) (l4proto : UInt8) : Bool :=
  f.proto.l4Protos.any fun l4 => l4proto == l4.number

/-- A packet that arrives for the forward. -/
def ResolvedForward.accepts (f : ResolvedForward) (p : Packet) : Bool :=
  p.iif = f.iface && f.carries p.l4proto && p.dport.any f.listen.contains

/-- The forward sends packets of the protocol to the address and port. -/
def ResolvedForward.sendsTo (f : ResolvedForward) (l4proto : UInt8) (ip : BitVec 32)
    (port : UInt16) : Bool :=
  ip = f.remoteIp && f.carries l4proto && f.destPort.contains port

/-- The prerouting chain acts for the first forward that the packet arrives for. -/
theorem prerouting_action (fs : List ResolvedForward) (p : Packet) :
    action (preroutingChain fs).rules p =
      (fs.find? (·.accepts p)).map fun f =>
        .dnat f.remoteIp f.destPort.start f.destPort.stop := by
  have happlies (f : ResolvedForward) :
      (f.proto.l4Protos.any fun l4 => (dnatRule f l4).applies p) = f.accepts p := by
    have hrange : (fun port => decide (f.listen.start ≤ port) && decide (port ≤ f.listen.stop)) =
        f.listen.contains := rfl
    unfold ResolvedForward.accepts ResolvedForward.carries
    cases f.proto <;>
      simp [ForwardProto.l4Protos, dnatRule, Rule.applies, Match.holds, hrange, Bool.and_assoc,
        Bool.and_or_distrib_left, Bool.and_or_distrib_right]
  have hact (f : ResolvedForward) (l4 : L4) : (dnatRule f l4).action =
      .dnat f.remoteIp f.destPort.start f.destPort.stop := rfl
  simp only [← happlies]
  exact action_flatMap hact p

/-- The postrouting chain acts for the first forward that sends such packets. -/
theorem postrouting_action (fs : List ResolvedForward) {p : Packet} {port : UInt16}
    (hport : p.dport = some port) :
    action (postroutingChain fs).rules p =
      (fs.find? (·.sendsTo p.l4proto p.daddr port)).map fun f => .snat f.sourceIp := by
  have happlies (f : ResolvedForward) :
      (f.proto.l4Protos.any fun l4 => (snatRule f l4).applies p) =
        f.sendsTo p.l4proto p.daddr port := by
    unfold ResolvedForward.sendsTo ResolvedForward.carries
    cases f.proto <;>
      simp [ForwardProto.l4Protos, snatRule, Rule.applies, Match.holds, PortRange.contains, hport,
        Bool.and_assoc, Bool.and_or_distrib_left, Bool.and_or_distrib_right]
  have hact (f : ResolvedForward) (l4 : L4) : (snatRule f l4).action = .snat f.sourceIp := rfl
  simp only [← happlies]
  exact action_flatMap hact p

/-! ## The source of a connection -/

/-- The new connection is sent where its forward says, with the source of that forward; one
that is for no forward keeps its destination. -/
def OwnSource (fs : List ResolvedForward) (p : Packet) : Prop :=
  match fs.find? (·.accepts p) with
  | none => ∀ p', (preroutingChain fs).Makes p p' → p' = p
  | some f =>
    (∃ p', (preroutingChain fs).Makes p p') ∧
    ∀ p', (preroutingChain fs).Makes p p' →
      p'.daddr = f.remoteIp ∧ p'.dport.any f.destPort.contains ∧
      (∃ p'', (postroutingChain fs).Makes p' p'') ∧
      ∀ p'', (postroutingChain fs).Makes p' p'' → p''.saddr = f.sourceIp

/-- What the postrouting chain makes of a packet that a forward sends. -/
theorem postrouting_makes {fs : List ResolvedForward} {p p' : Packet} {f : ResolvedForward}
    {port : UInt16} (hport : p.dport = some port)
    (hfind : fs.find? (·.sendsTo p.l4proto p.daddr port) = some f) :
    (postroutingChain fs).Makes p p' ↔ p' = { p with saddr := f.sourceIp } := by
  unfold Chain.Makes
  rw [postrouting_action fs hport, hfind]
  constructor
  · intro h
    cases h
    rfl
  · rintro rfl
    exact .snat

/-- What the prerouting chain makes of a packet for a forward. -/
theorem prerouting_makes {fs : List ResolvedForward} {p p' : Packet} {f : ResolvedForward}
    (hfind : fs.find? (·.accepts p) = some f) :
    (preroutingChain fs).Makes p p' ↔
      ∃ port, f.destPort.contains port ∧
        p' = { p with daddr := f.remoteIp, dport := some port } := by
  unfold Chain.Makes
  rw [prerouting_action, hfind]
  constructor
  · intro h
    cases h with
    | @dnat _ _ _ port hstart hstop =>
      refine ⟨port, ?_, rfl⟩
      simp [PortRange.contains, hstart, hstop]
  · rintro ⟨port, hport, rfl⟩
    simp only [PortRange.contains, Bool.and_eq_true, decide_eq_true_eq] at hport
    exact .dnat hport.1 hport.2

/-- A forward that accepts a packet sends it on to each of its own ports. -/
theorem sendsTo_of_accepts {f : ResolvedForward} {p : Packet} {port : UInt16}
    (hf : f.accepts p) (hport : f.destPort.contains port) :
    f.sendsTo p.l4proto f.remoteIp port := by
  simp only [ResolvedForward.accepts, Bool.and_eq_true] at hf
  simp [ResolvedForward.sendsTo, hf.1.2, hport]

/-- A connection has its own source exactly when, for every port of its forward, the first forward in
the list that sends its protocol to that address and port has the same source. -/
theorem ownSource_iff {fs : List ResolvedForward}
    (hvalid : ∀ f ∈ fs, validatePorts f.listen f.destPort = .ok ()) (p : Packet) :
    OwnSource fs p ↔
      ∀ f, fs.find? (·.accepts p) = some f → ∀ port, f.destPort.contains port →
        (fs.find? (·.sendsTo p.l4proto f.remoteIp port)).map (·.sourceIp) = some f.sourceIp := by
  unfold OwnSource
  cases hfind : fs.find? (·.accepts p) with
  | none =>
    constructor
    · intro _ f hf
      cases hf
    · intro _ p' hmakes
      unfold Chain.Makes at hmakes
      rw [prerouting_action, hfind] at hmakes
      exact hmakes
  | some f =>
    have hmem := List.mem_of_find?_eq_some hfind
    have haccepts : f.accepts p = true := by simpa using List.find?_some hfind
    -- some forward sends to each port: `f` itself does
    have hsends (port : UInt16) (hport : f.destPort.contains port) :
        ∃ g, fs.find? (·.sendsTo p.l4proto f.remoteIp port) = some g := by
      rw [← Option.isSome_iff_exists, List.find?_isSome]
      exact ⟨f, hmem, sendsTo_of_accepts haccepts hport⟩
    constructor
    · rintro ⟨-, h⟩ f' hf' port hport
      cases hf'
      obtain ⟨g, hg⟩ := hsends port hport
      obtain ⟨-, -, -, hsource⟩ := h _ ((prerouting_makes hfind).mpr ⟨port, hport, rfl⟩)
      have hsaddr := hsource _ ((postrouting_makes rfl hg).mpr rfl)
      rw [hg, Option.map_some]
      exact congrArg some hsaddr
    · intro h
      obtain ⟨-, hdest, -⟩ := validatePorts_ok (hvalid f hmem)
      have hfirst : f.destPort.contains f.destPort.start := by
        simpa [PortRange.contains, PortRange.isValid] using hdest
      refine ⟨⟨_, (prerouting_makes hfind).mpr ⟨_, hfirst, rfl⟩⟩, ?_⟩
      intro p' hmakes
      obtain ⟨port, hport, rfl⟩ := (prerouting_makes hfind).mp hmakes
      obtain ⟨g, hg⟩ := hsends port hport
      have hsame := h f rfl port hport
      rw [hg, Option.map_some, Option.some.injEq] at hsame
      refine ⟨rfl, by simpa using hport, ⟨_, (postrouting_makes rfl hg).mpr rfl⟩, ?_⟩
      intro p'' hmakes'
      rw [(postrouting_makes rfl hg).mp hmakes']
      exact hsame

/-- A web server behind an interface, with the address of that interface as the source. -/
def webForward (iface : String) (source : BitVec 32) : ResolvedForward :=
  ⟨.tcp, iface, .single 443, ipv4 10 0 0 9, .single 8443, source⟩

/-- A new connection to the web server through an interface. -/
def webPacket (iface : String) : Packet :=
  ⟨iface, ipv4 203 0 113 7, ipv4 192 168 1 5, 6, some 443, .new⟩

/-- Two interfaces in front of one server, with one source for both. -/
theorem ownSource_shared :
    OwnSource [webForward "eth0" (ipv4 192 168 1 5), webForward "eth1" (ipv4 192 168 1 5)] (webPacket "eth1") := by
  refine (ownSource_iff ?_ _).mpr ?_
  · decide +kernel
  · intro f hf port hport
    have hsecond : [webForward "eth0" (ipv4 192 168 1 5), webForward "eth1" (ipv4 192 168 1 5)].find?
        (·.accepts (webPacket "eth1")) = some (webForward "eth1" (ipv4 192 168 1 5)) := by decide +kernel
    rw [hsecond] at hf
    cases hf
    -- The first forward sends to the same ports of the server, from the same source.
    have hsends : (webForward "eth0" (ipv4 192 168 1 5)).sendsTo (webPacket "eth1").l4proto
        (webForward "eth1" (ipv4 192 168 1 5)).remoteIp port = true :=
      sendsTo_of_accepts (p := webPacket "eth0") (by decide +kernel) hport
    rw [List.find?_cons, hsends]
    rfl

/-- Two interfaces in front of one server: connections through the second have the source of the
first. -/
theorem not_ownSource_shared :
    ¬OwnSource [webForward "eth0" (ipv4 192 168 1 5), webForward "eth1" (ipv4 192 168 2 5)]
      (webPacket "eth1") := by
  intro h
  have hfirst : [webForward "eth0" (ipv4 192 168 1 5), webForward "eth1" (ipv4 192 168 2 5)].find?
      (·.accepts (webPacket "eth1")) = some (webForward "eth1" (ipv4 192 168 2 5)) := by
    decide +kernel
  unfold OwnSource at h
  rw [hfirst] at h
  have hport : (webForward "eth1" (ipv4 192 168 2 5)).destPort.contains 8443 = true := by
    decide +kernel
  obtain ⟨-, -, -, hsource⟩ := h.2 _ ((prerouting_makes hfirst).mpr ⟨8443, hport, rfl⟩)
  have hsends : [webForward "eth0" (ipv4 192 168 1 5),
      webForward "eth1" (ipv4 192 168 2 5)].find? (·.sendsTo 6 (ipv4 10 0 0 9) 8443) =
        some (webForward "eth0" (ipv4 192 168 1 5)) := by decide +kernel
  have hsaddr := hsource _ ((postrouting_makes rfl hsends).mpr rfl)
  exact absurd hsaddr (by decide +kernel)

end Ipgate
