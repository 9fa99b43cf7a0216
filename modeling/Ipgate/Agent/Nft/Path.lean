-- SUMMARY: The way of a new connection through both tables and those around them: which are forwarded, where to and under which source.
import Ipgate.Agent.Nft.Nat
import Ipgate.Agent.Nft.Policy

/-!
# The way of a forwarded connection

The first packet of a connection gets its destination in the prerouting chains, passes the forward
chains if it is not for the host itself, and gets its source in the postrouting chains. The chains
of other tables stand between ours: of the NAT chains the first that acts counts, and those of
other tools come first; of the forward chains each can drop.
-/

namespace Ipgate.Path

open Net

/-- A host with both tables, and the tables around them. -/
structure Router where
  cfg : RulesetConfig
  entries : List Entry
  now : DateTime
  forwards : List ResolvedForward
  /-- The addresses of the host itself. -/
  isLocal : BitVec 32 → Bool
  /-- The destination that a table in front of ours gives to a packet. -/
  dnatBefore : NftNat.Packet → Option (BitVec 32 × UInt16)
  /-- The source that a table in front of ours gives to a packet. -/
  snatBefore : NftNat.Packet → Option (BitVec 32)
  /-- The forward chains of other tables let a packet pass. -/
  othersPass : NftNat.Packet → Bool

/-- How the forward chains see what became of a packet. The connection counts as redirected if its
destination has changed. The forward chains do not look into the transport header. -/
def inetView (arrived p : NftNat.Packet) : Nft.Packet where
  iifLo := p.iif = "lo"
  saddr := .v4 p.saddr
  ct := p.ct
  ctDnat := p ≠ arrived
  ctOrigDport := arrived.dport.getD 0
  exthdrs := []
  l4proto := p.l4proto
  th := []

namespace Router

/-- What the prerouting chains can make of a packet. -/
def Preroutes (h : Router) (p p' : NftNat.Packet) : Prop :=
  match h.dnatBefore p with
  | some (ip, port) => p' = { p with daddr := ip, dport := some port }
  | none => (preroutingChain h.forwards).Makes p p'

/-- What is in the sets. The forward chains do not ask for knocks. -/
def sets (h : Router) : Nft.Sets SetName := rulesetSets h.cfg h.entries h.now fun _ _ => false

/-- The forward chains of both tables and of the others let a packet pass. -/
def FilterPasses (h : Router) (arrived p : NftNat.Packet) : Prop :=
  (∀ c ∈ (rulesetTable h.cfg h.entries h.now).chains, c.hook = "forward" →
    (c.eval h.sets (inetView arrived p)).1 = .accept) ∧
  (natForwardChain h.forwards).Makes p p ∧ h.othersPass p = true

/-- What the postrouting chains can make of a packet. -/
def Postroutes (h : Router) (p p' : NftNat.Packet) : Prop :=
  match h.snatBefore p with
  | some ip => p' = { p with saddr := ip }
  | none => (postroutingChain h.forwards).Makes p p'

/-- The packet leaves the host again, as another. -/
def Forwards (h : Router) (p p'' : NftNat.Packet) : Prop :=
  ∃ p', h.Preroutes p p' ∧ h.isLocal p'.daddr = false ∧ h.FilterPasses p p' ∧ h.Postroutes p' p''

/-! ## What is meant -/

/-- Other tables decide first, then the first of the forwards that the packet arrives for, which
sends it to one of its ports. A packet for none keeps its destination. -/
def Targets (h : Router) (p p' : NftNat.Packet) : Prop :=
  match h.dnatBefore p with
  | some (ip, port) => p' = { p with daddr := ip, dport := some port }
  | none =>
    match h.forwards.find? (·.accepts p) with
    | some f => ∃ port, f.destPort.contains port ∧ p' = { p with daddr := f.remoteIp, dport := some port }
    | none => p' = p

/-- The source is on the allowlist, or the port that the packet arrived for is public. -/
def Admits (h : Router) (p : NftNat.Packet) : Prop :=
  (∃ e ∈ h.entries, e.isExpired h.now = false ∧ e.target.Contains (.v4 p.saddr)) ∨
  (p.l4proto = Nft.L4.number .tcp ∧ ∃ r ∈ h.cfg.publicTcp, r.contains (p.dport.getD 0)) ∨
  (p.l4proto = Nft.L4.number .udp ∧ ∃ r ∈ h.cfg.publicUdp, r.contains (p.dport.getD 0))

/-- Other tables decide first, then the first of the forwards that sends to such a destination. -/
def source (h : Router) (p : NftNat.Packet) : BitVec 32 :=
  (h.snatBefore p).getD
    ((p.dport.bind fun port => h.forwards.find? (·.sendsTo p.l4proto p.daddr port)).elim p.saddr (·.sourceIp))

end Router

open Router

section Chains

variable {h : Router} {p p' arrived : NftNat.Packet}

theorem preroutes_iff : h.Preroutes p p' ↔ h.Targets p p' := by
  unfold Preroutes Targets
  cases h.dnatBefore p with
  | some target => rfl
  | none =>
    cases hfind : h.forwards.find? (·.accepts p) with
    | some f => exact prerouting_makes hfind
    | none =>
      unfold NftNat.Chain.Makes
      rw [prerouting_action, hfind]
      rfl

theorem targets_keep (htarget : h.Targets p p') : p'.saddr = p.saddr ∧ p'.l4proto = p.l4proto ∧ p'.ct = p.ct := by
  unfold Targets at htarget
  split at htarget
  · rw [htarget]
    exact ⟨rfl, rfl, rfl⟩
  · split at htarget
    · obtain ⟨port, -, rfl⟩ := htarget
      exact ⟨rfl, rfl, rfl⟩
    · rw [htarget]
      exact ⟨rfl, rfl, rfl⟩

/-- A chain that only accepts makes no other packet. -/
theorem accepts_makes {rules : List NftNat.Rule} (haccept : ∀ r ∈ rules, r.action = .accept) {name hook : String}
    {type : NftNat.ChainType} {priority : Int} : NftNat.Chain.Makes ⟨name, type, hook, priority, rules⟩ p p := by
  unfold NftNat.Chain.Makes NftNat.action
  cases hfind : rules.find? (·.applies p) with
  | none => rfl
  | some r =>
    dsimp only [Option.map_some]
    rw [haccept r (List.mem_of_find?_eq_some hfind)]
    exact .accept

theorem natForwardChain_makes (fs : List ResolvedForward) : (natForwardChain fs).Makes p p := by
  refine accepts_makes fun r hr => ?_
  cases hr with
  | head => rfl
  | tail _ hr =>
    obtain ⟨f, -, hf⟩ := List.mem_flatMap.mp hr
    obtain ⟨l4, -, rfl⟩ := List.mem_map.mp hf
    rfl

/-- A packet without a port has no transport header that a rule matches. -/
theorem postrouting_action_none (fs : List ResolvedForward) (hport : p.dport = none) :
    NftNat.action (postroutingChain fs).rules p = none := by
  unfold NftNat.action
  rw [Option.map_eq_none_iff, List.find?_eq_none]
  intro r hr
  obtain ⟨f, -, hf⟩ := List.mem_flatMap.mp hr
  obtain ⟨l4, -, rfl⟩ := List.mem_map.mp hf
  simp [snatRule, NftNat.Rule.applies, NftNat.Match.holds, hport]

theorem postroutes_iff : h.Postroutes p p' ↔ p' = { p with saddr := h.source p } := by
  unfold Postroutes Router.source
  cases h.snatBefore p with
  | some ip => rfl
  | none =>
    rw [Option.getD_none]
    cases hport : p.dport with
    | none =>
      unfold NftNat.Chain.Makes
      rw [postrouting_action_none h.forwards hport]
      cases p
      cases hport
      rfl
    | some port =>
      rw [Option.bind_some]
      cases hfind : h.forwards.find? (·.sendsTo p.l4proto p.daddr port) with
      | some f => exact (postrouting_makes hport hfind).trans (by rw [hport]; rfl)
      | none =>
        unfold NftNat.Chain.Makes
        rw [postrouting_action h.forwards hport, hfind]
        cases p
        cases hport
        rfl

/-- The gate asks for the source and for the port that the packet arrived for. -/
theorem gate_accepts_iff (htarget : h.Targets p p') (hnew : p.ct = .new) (hother : p' ≠ p) :
    (forwardChain.eval h.sets (inetView p p')).1 = .accept ↔
      h.Admits p := by
  obtain ⟨hsaddr, hproto, hct⟩ := targets_keep htarget
  have hallow : h.sets.addr (allowSet (inetView p p').family)
      (inetView p p').saddr = true ↔ ∃ e ∈ h.entries, e.isExpired h.now = false ∧ e.target.Contains (.v4 p.saddr) := by
    have hview : (inetView p p').saddr = .v4 p.saddr := congrArg IpAddr.v4 hsaddr
    unfold Router.sets
    rw [rulesetSets_allow, hview]
    refine exists_congr fun e => and_congr_right fun _ => and_congr_right fun _ => and_iff_right_of_imp fun hin => ?_
    cases htarget : e.target with
    | v4 c => rfl
    | v6 c =>
      rw [htarget] at hin
      exact hin.elim
  have hl4 (l4 : Nft.L4) : (inetView p p').is l4 = true ↔ p.l4proto = l4.number := by
    have hview : (inetView p p').l4proto = p.l4proto := hproto
    unfold Nft.Packet.is
    rw [hview, beq_iff_eq]
  have htcp : h.sets.port .publicTcp (p.dport.getD 0) = true ↔ ∃ r ∈ h.cfg.publicTcp, r.contains (p.dport.getD 0) :=
    rulesetSets_publicTcp _
  have hudp : h.sets.port .publicUdp (p.dport.getD 0) = true ↔ ∃ r ∈ h.cfg.publicUdp, r.contains (p.dport.getD 0) :=
    rulesetSets_publicUdp _
  have hadmits := or_congr hallow (or_congr (and_congr (hl4 .tcp) htcp) (and_congr (hl4 .udp) hudp))
  -- the packet is new and redirected, so the chain comes to the gate
  rw [forwardChain_eval_new (hct.trans hnew) (decide_eq_true hother)]
  split
  · next hcond => exact iff_of_true rfl (hadmits.mp hcond)
  · next hcond => exact iff_of_false (fun hdrop => by cases hdrop) fun h => hcond (hadmits.mpr h)

theorem filterPasses_iff (htarget : h.Targets p p') (hnew : p.ct = .new) :
    h.FilterPasses p p' ↔
      (h.cfg.forwardAllowlistOnly = true → p' ≠ p → h.Admits p) ∧ h.othersPass p' = true := by
  unfold FilterPasses
  rw [and_iff_right (natForwardChain_makes h.forwards)]
  refine and_congr_left fun _ => ?_
  have hinput : ¬(inputChain h.cfg).hook = "forward" := by
    have hhook : (inputChain h.cfg).hook = "input" := rfl
    rw [hhook]
    decide
  unfold rulesetTable
  cases hgate : h.cfg.forwardAllowlistOnly with
  | false => simp [hinput]
  | true =>
    have hview : ¬p' = p → ((forwardChain.eval h.sets
        (inetView p p')).1 = .accept ↔ h.Admits p) := gate_accepts_iff htarget hnew
    have hhook : forwardChain.hook = "forward" := rfl
    by_cases hsame : p' = p
    · have hother : ¬((inetView p p').ct = .new ∧ (inetView p p').ctDnat = true) :=
        fun hboth => of_decide_eq_true hboth.2 hsame
      simp [hinput, hsame, forwardChain_eval_other (hsame ▸ hother)]
    · simp [hinput, hsame, hhook, hview hsame]

end Chains

/-! ## Which connections are forwarded -/

/-- A new connection is forwarded with the destination that the first table gave to it, and with
the source that belongs to that destination; where the gate is there and the destination is not the
one it came with, whichever table changed it, only from an allowed source or for a public port. -/
theorem forwards_iff (h : Router) (p p'' : NftNat.Packet) (hnew : p.ct = .new) :
    h.Forwards p p'' ↔ ∃ p', h.Targets p p' ∧ h.isLocal p'.daddr = false ∧
      (h.cfg.forwardAllowlistOnly = true → p' ≠ p → h.Admits p) ∧ h.othersPass p' = true ∧
      p'' = { p' with saddr := h.source p' } := by
  unfold Forwards
  refine exists_congr fun p' => ?_
  rw [preroutes_iff, postroutes_iff]
  refine and_congr_right fun htarget => ?_
  rw [filterPasses_iff htarget hnew, and_assoc]

/-- The web server behind the host is for the allowlist and public on port 443. -/
def webRouter : Router where
  cfg := ⟨22, false, none, true, [.single 443], []⟩
  entries := []
  now := 0
  forwards := [webForward "eth0" (ipv4 192 168 1 5)]
  isLocal ip := ip = ipv4 192 168 1 5
  dnatBefore _ := none
  snatBefore _ := none
  othersPass _ := true

/-- A connection to the public port gets to the web server. -/
theorem forwards_web : webRouter.Forwards (webPacket "eth0")
    { webPacket "eth0" with saddr := ipv4 192 168 1 5, daddr := ipv4 10 0 0 9, dport := some 8443 } := by
  refine (forwards_iff webRouter (webPacket "eth0") _ rfl).mpr
    ⟨{ webPacket "eth0" with daddr := ipv4 10 0 0 9, dport := some 8443 }, ?_, by decide, fun _ _ => ?_, rfl, by decide⟩
  · have hfind : webRouter.forwards.find? (·.accepts (webPacket "eth0")) = some (webForward "eth0" (ipv4 192 168 1 5)) := by
      decide
    unfold Targets
    simp only [webRouter] at hfind ⊢
    rw [hfind]
    exact ⟨8443, by decide, rfl⟩
  · exact .inr (.inl ⟨rfl, .single 443, by simp [webRouter], by decide⟩)

end Ipgate.Path
