-- SUMMARY: The verdict of the rendered input chain on every packet, where it is that of the policy, and knocks.
import Ipgate.Agent.Nft.Ruleset

/-!
# The policy of the input chain

`Permits` states in the terms of packets, ports and entries which packets are to
get to the host, and `Accepts` which ones do: evaluating the rules of the rendered
chain with the rendered set contents accepts exactly these. The two differ in the
ICMPv6 messages that stand behind an extension header.
-/

namespace Ipgate

open Net Nft

/-! ## The stated policy -/

section Policy

variable (cfg : RulesetConfig) (entries : List Entry) (now : DateTime)
variable (dyn : SetName → IpAddr → Bool) (p : Packet)

/-- The packet belongs to a connection the host knows. -/
def OfConnection : Prop := p.ct = .established ∨ p.ct = .related

/-- One of the listed ICMP types: neighbour and router discovery, and the errors
of either family. -/
def InfraIcmp : Prop :=
  (p.family = .ipv6 ∧ p.is .icmpv6 ∧ ∃ t, p.icmpType = some t ∧ t ∈ [135, 136, 133, 134, 1, 2, 3, 4]) ∨
  (p.family = .ipv4 ∧ p.is .icmp ∧ ∃ t, p.icmpType = some t ∧ t ∈ [3, 11, 12])

/-- What the rules take for one of these. `ip6 nexthdr` compares the field of the
IPv6 header itself, so it does not see an ICMPv6 header behind an extension header. -/
def SeenInfraIcmp : Prop := InfraIcmp p ∧ (p.family = .ipv6 → p.exthdrs = [])

/-- A listed ICMPv6 message behind an extension header. -/
def HiddenInfraIcmp : Prop := InfraIcmp p ∧ p.family = .ipv6 ∧ p.exthdrs ≠ []

/-- UDP to the knock port with the token in front of its payload, while knock
rules are rendered. The payload starts behind the 8 bytes of the UDP header. -/
def KnockMatch : Prop :=
  ∃ k, cfg.knock = some k ∧ p.is .udp ∧ p.dport = some k.port ∧ p.thBytes 8 16 = k.token.toList

/-- TCP to the SSH port, which is open or was opened by a knock. -/
def SshAdmits : Prop :=
  p.is .tcp ∧ p.dport = some cfg.sshPort ∧
    (cfg.sshAllowlistOnly = false ∨ (cfg.knock.isSome ∧ dyn (knockSet p.family) p.saddr))

/-- TCP or UDP to a public port of the protocol. -/
def PublicAdmits : Prop :=
  (p.is .tcp ∧ ∃ port, p.dport = some port ∧ ∃ r ∈ cfg.publicTcp, r.contains port) ∨
  (p.is .udp ∧ ∃ port, p.dport = some port ∧ ∃ r ∈ cfg.publicUdp, r.contains port)

/-- The source lies in the target of an entry that has not expired. -/
def AllowAdmits : Prop := ∃ e ∈ entries, e.isExpired now = false ∧ e.target.Contains p.saddr

/-- The packets that get to the host, given which ones are let in as infrastructure. -/
def AcceptsWith (infra : Packet → Prop) : Prop :=
  OfConnection p ∨ p.ct ≠ .invalid ∧
    (p.iifLo ∨ infra p ∨ ¬KnockMatch cfg p ∧
      (SshAdmits cfg dyn p ∨ PublicAdmits cfg p ∨ AllowAdmits entries now p))

/-- The stated policy: the listed ICMP types are for every source. -/
def Permits : Prop := AcceptsWith cfg entries now dyn p InfraIcmp

/-- The packets that the chain lets in. -/
def Accepts : Prop := AcceptsWith cfg entries now dyn p SeenInfraIcmp

/-- A knock that no earlier rule takes. -/
def Knocks : Prop :=
  ¬OfConnection p ∧ p.ct ≠ .invalid ∧ ¬p.iifLo ∧ ¬SeenInfraIcmp p ∧ KnockMatch cfg p

/-- The contents of the rendered sets, and of the knock sets at the moment. -/
def rulesetSets : Sets SetName := (rulesetTable cfg entries now).contents dyn

/-- The text describes a table with one input chain. Evaluated with the rendered set
contents, it accepts the packet exactly when the policy says so, drops a knock and puts
its source into the knock set of its family, and changes no set for anything else. -/
def ImplementsPolicy : Prop :=
  let t := rulesetTable cfg entries now
  let S := rulesetSets cfg entries now dyn
  renderApply cfg entries now = t.script ∧ t.chains.filter (·.hook == "input") = [inputChain cfg] ∧
    (((inputChain cfg).eval S p).1 = .accept ↔ Permits cfg entries now dyn p) ∧
    (Knocks cfg p → (inputChain cfg).eval S p = (.drop, S.insert (knockSet p.family) p.saddr)) ∧
    (¬Knocks cfg p → ((inputChain cfg).eval S p).2 = S)

end Policy

variable {cfg : RulesetConfig} {entries : List Entry} {now : DateTime}
variable {dyn : SetName → IpAddr → Bool} {p : Packet} {S : Sets SetName}
variable {rest : List (Line SetName)}

/-! ## The contents of the sets -/

theorem netFamily_of_contains {n : IpNet} {a : IpAddr} (h : n.Contains a) :
    netFamily n = Family.of a := by
  cases n <;> cases a <;> first | rfl | exact h.elim

/-- An allow set has the addresses of the unexpired targets of its family. -/
theorem rulesetSets_allow (f : Family) (a : IpAddr) :
    (rulesetSets cfg entries now dyn).addr (allowSet f) a = true ↔
      ∃ e ∈ entries, e.isExpired now = false ∧ netFamily e.target = f ∧ e.target.Contains a := by
  have hset : (rulesetSets cfg entries now dyn).addr (allowSet f) a =
      (allowElems f entries now).any (·.hasAddr a) := by
    cases f <;> cases h : cfg.knock.isSome <;>
      simp [rulesetSets, Table.contents, rulesetTable, allowSet, h]
  rw [hset]
  simp [allowElems, activeOf, Elem.hasAddr, and_assoc]

theorem rulesetSets_knock (f : Family) (a : IpAddr) :
    (rulesetSets cfg entries now dyn).addr (knockSet f) a = (cfg.knock.isSome && dyn (knockSet f) a) := by
  cases f <;> cases h : cfg.knock.isSome <;>
    simp [rulesetSets, Table.contents, rulesetTable, knockSet, h]

theorem any_portElems {ports : List PortRange} {port : UInt16} :
    (portElems ports).any (·.hasPort port) = true ↔ ∃ r ∈ ports, r.contains port := by
  rw [← mem_mergePorts]
  simp [portElems, Elem.hasPort, PortRange.contains]

theorem rulesetSets_publicTcp (port : UInt16) :
    (rulesetSets cfg entries now dyn).port .publicTcp port = true ↔
      ∃ r ∈ cfg.publicTcp, r.contains port := by
  rw [← any_portElems]
  cases h : cfg.knock.isSome <;> simp [rulesetSets, Table.contents, rulesetTable, h]

theorem rulesetSets_publicUdp (port : UInt16) :
    (rulesetSets cfg entries now dyn).port .publicUdp port = true ↔
      ∃ r ∈ cfg.publicUdp, r.contains port := by
  rw [← any_portElems]
  cases h : cfg.knock.isSome <;> simp [rulesetSets, Table.contents, rulesetTable, h]

/-! ## The rules no setting changes -/

theorem holds_icmpv6 {types : List IcmpType} : Match.holds S p (.icmpType .ipv6 types) = true ↔
    (p.family = .ipv6 ∧ p.is .icmpv6 ∧ types.any (fun t => p.icmpType = some t.code)) ∧ p.exthdrs = [] := by
  simp only [Match.holds, Bool.and_eq_true, beq_iff_eq, Packet.nexthdr_icmpv6, decide_eq_true_eq]
  tauto

/-- The two rules accept the listed types, ICMPv6 where it is seen. -/
theorem seenInfraIcmp_iff : SeenInfraIcmp p ↔
    Match.holds S p (.icmpType .ipv6 ICMPV6_INFRA) = true ∨ Match.holds S p (.icmpType .ipv4 ICMP_INFRA) = true := by
  rw [holds_icmpv6]
  simp only [SeenInfraIcmp, InfraIcmp, Match.holds, ICMPV6_INFRA, ICMP_INFRA, List.any_cons, List.any_nil,
    Bool.or_eq_true, Bool.and_eq_true, decide_eq_true_eq]
  cases p.family <;> cases p.icmpType <;> simp [and_assoc]

theorem meetsAny_openAccepts : meetsAny S p openAccepts = true ↔ p.iifLo ∨ SeenInfraIcmp p := by
  rw [seenInfraIcmp_iff (S := S)]
  simp [meetsAny, openAccepts, Match.holds]

theorem evalLines_base_connection (h : OfConnection p) :
    evalLines S p (baseLines ++ rest) = some (.accept, S) := by
  have hconn : Match.holds S p (.ctState [.established, .related]) = true := by
    rcases h with h | h <;> simp [Match.holds, h]
  simp [baseLines, Rule.eval_accept, hconn]

theorem evalLines_base_invalid (hinv : p.ct = .invalid) :
    evalLines S p (baseLines ++ rest) = some (.drop, S) := by
  simp [baseLines, Rule.eval_accept, Rule.eval_plain, Match.holds, hinv]

/-- Behind the connection states, loopback and infrastructure ICMP are accepted
and nothing else is decided. -/
theorem evalLines_base_new (h : ¬OfConnection p) (hinv : p.ct ≠ .invalid) :
    evalLines S p (baseLines ++ rest) =
      if meetsAny S p openAccepts then some (.accept, S) else evalLines S p rest := by
  have hconn : Match.holds S p (.ctState [.established, .related]) = false := by
    simpa [Match.holds, OfConnection] using h
  have hct : Match.holds S p (.ctState [.invalid]) = false := by
    simpa [Match.holds] using hinv
  rw [baseLines, List.cons_append, List.cons_append, evalLines_rule, evalLines_rule,
    Rule.eval_accept, Rule.eval_plain]
  simp only [List.all_cons, hconn, hct, Bool.false_and, Bool.false_eq_true, if_false, Option.none_or]
  exact evalLines_accepts openAccepts rest

/-! ## The knock rules -/

theorem knockRule_eval_match {k : SshKnock} {f : Family} (hf : p.family = f) (hudp : p.is .udp)
    (hport : p.dport = some k.port) (htoken : p.thBytes 8 16 = k.token.toList) :
    (knockRule k f).eval S p = some (.drop, S.insert (knockSet f) p.saddr) := by
  simp [knockRule, Rule.eval, Match.holds, Stmt.exec, hf, hudp, hport, htoken]

theorem knockRule_eval_rest {k : SshKnock} {f : Family}
    (h : ¬(p.family = f ∧ p.is .udp ∧ p.dport = some k.port ∧ p.thBytes 8 16 = k.token.toList)) :
    (knockRule k f).eval S p = none := by
  have hall : (knockRule k f).matches_.all (·.holds S p) = false := by
    simpa [knockRule, Match.holds] using h
  unfold Rule.eval
  rw [hall]
  rfl

/-- A knock is dropped and its source recorded. -/
theorem evalLines_knock (h : KnockMatch cfg p) :
    evalLines S p (knockLines cfg ++ rest) = some (.drop, S.insert (knockSet p.family) p.saddr) := by
  obtain ⟨k, hk, hudp, hport, htoken⟩ := h
  unfold knockLines
  rw [hk]
  simp only [List.cons_append, evalLines_rule]
  cases hf : p.family with
  | ipv4 => rw [knockRule_eval_match hf hudp hport htoken, Option.some_or]
  | ipv6 =>
    rw [knockRule_eval_rest (by simp [hf]), knockRule_eval_match hf hudp hport htoken, Option.none_or,
      Option.some_or]

theorem evalLines_no_knock (h : ¬KnockMatch cfg p) :
    evalLines S p (knockLines cfg ++ rest) = evalLines S p rest := by
  unfold knockLines
  cases hk : cfg.knock with
  | none => rfl
  | some k =>
    have hrest (f : Family) : (knockRule k f).eval S p = none :=
      knockRule_eval_rest fun hm => h ⟨k, hk, hm.2⟩
    simp only [List.cons_append, List.nil_append, evalLines_rule, hrest, Option.none_or]

/-! ## The rules for ports and sources -/

/-- An address rule for each family is one rule for the family of the source. -/
theorem saddr_families_iff (set : Family → SetName) :
    Match.holds S p (.saddrIn .ipv4 (set .ipv4)) = true ∨ Match.holds S p (.saddrIn .ipv6 (set .ipv6)) = true ↔
      S.addr (set p.family) p.saddr = true := by
  cases hf : p.family <;> simp [Match.holds, hf]

theorem sshAccepts_iff : meetsAny (rulesetSets cfg entries now dyn) p (sshAccepts cfg) = true ↔
    SshAdmits cfg dyn p := by
  have hport (S : Sets SetName) :
      Match.holds S p (.dport .tcp cfg.sshPort) = true ↔ p.is .tcp ∧ p.dport = some cfg.sshPort := by
    simp [Match.holds]
  unfold sshAccepts SshAdmits
  split
  · next hclosed =>
    split
    · next hknock =>
      -- Two rules, one for each family of sources.
      have hfam := saddr_families_iff (S := rulesetSets cfg entries now dyn) (p := p) knockSet
      rw [rulesetSets_knock, hknock, Bool.true_and] at hfam
      simp only [meetsAny, List.any_cons, List.any_nil, List.all_cons, List.all_nil, Bool.and_true,
        Bool.or_false, Bool.or_eq_true, Bool.and_eq_true, ← and_or_left, hport]
      rw [show knockSet .ipv4 = .knock4 from rfl, show knockSet .ipv6 = .knock6 from rfl] at hfam
      simp only [hfam, hclosed, hknock, Bool.true_eq_false, false_or, true_and, and_assoc]
    · next hknock => simp [meetsAny, hclosed, hknock]
  · next hopen =>
    simp only [meetsAny, List.any_cons, List.any_nil, List.all_cons, List.all_nil, Bool.and_true,
      Bool.or_false, hport]
    simp [hopen]

theorem tailAccepts_iff : meetsAny (rulesetSets cfg entries now dyn) p tailAccepts = true ↔
    PublicAdmits cfg p ∨ AllowAdmits entries now p := by
  have hfam := saddr_families_iff (S := rulesetSets cfg entries now dyn) (p := p) allowSet
  have hallow : (rulesetSets cfg entries now dyn).addr (allowSet p.family) p.saddr = true ↔
      AllowAdmits entries now p := by
    rw [rulesetSets_allow, AllowAdmits]
    constructor
    · rintro ⟨e, he, hexp, -, hc⟩
      exact ⟨e, he, hexp, hc⟩
    · rintro ⟨e, he, hexp, hc⟩
      exact ⟨e, he, hexp, netFamily_of_contains hc, hc⟩
  have htcp : Match.holds (rulesetSets cfg entries now dyn) p (.dportIn .tcp .publicTcp) = true ↔
      p.is .tcp ∧ ∃ port, p.dport = some port ∧ ∃ r ∈ cfg.publicTcp, r.contains port := by
    simp only [Match.holds, Bool.and_eq_true, Option.any_eq_true, rulesetSets_publicTcp]
  have hudp : Match.holds (rulesetSets cfg entries now dyn) p (.dportIn .udp .publicUdp) = true ↔
      p.is .udp ∧ ∃ port, p.dport = some port ∧ ∃ r ∈ cfg.publicUdp, r.contains port := by
    simp only [Match.holds, Bool.and_eq_true, Option.any_eq_true, rulesetSets_publicUdp]
  rw [← hallow, ← hfam]
  simp only [meetsAny, tailAccepts, PublicAdmits, List.any_cons, List.any_nil, List.all_cons,
    List.all_nil, Bool.and_true, Bool.or_false, Bool.or_eq_true, htcp, hudp, allowSet, or_assoc]

theorem evalLines_sshComment :
    evalLines S p (sshComment cfg ++ rest) = evalLines S p rest := by
  unfold sshComment
  split <;> rfl

/-- Behind the knock rules, what some condition admits is accepted and the
policy drops the rest. -/
theorem evalLines_admits : evalLines S p (sshComment cfg ++ acceptLines (sshAccepts cfg ++ tailAccepts)) =
    if meetsAny S p (sshAccepts cfg ++ tailAccepts) then some (.accept, S) else none := by
  have h := evalLines_accepts (S := S) (p := p) (sshAccepts cfg ++ tailAccepts) []
  rw [List.append_nil] at h
  rw [evalLines_sshComment]
  exact h

theorem admits_iff : meetsAny (rulesetSets cfg entries now dyn) p (sshAccepts cfg ++ tailAccepts) = true ↔
    SshAdmits cfg dyn p ∨ PublicAdmits cfg p ∨ AllowAdmits entries now p := by
  have hssh : meetsAny (rulesetSets cfg entries now dyn) p (sshAccepts cfg) = true ↔ SshAdmits cfg dyn p :=
    sshAccepts_iff
  have htail : meetsAny (rulesetSets cfg entries now dyn) p tailAccepts = true ↔
      PublicAdmits cfg p ∨ AllowAdmits entries now p := tailAccepts_iff
  rw [meetsAny_append, Bool.or_eq_true, hssh, htail]

/-! ## The verdict -/

/-- A new packet that is no knock is accepted if the conditions at the end of the
chain admit it. -/
theorem inputChain_eval_new (hconn : ¬OfConnection p) (hinv : p.ct ≠ .invalid) (hlo : ¬p.iifLo)
    (hicmp : ¬SeenInfraIcmp p) (hknock : ¬KnockMatch cfg p) :
    (inputChain cfg).eval S p =
      (if meetsAny S p (sshAccepts cfg ++ tailAccepts) then .accept else .drop, S) := by
  have hopen : ¬meetsAny S p openAccepts := by
    rw [meetsAny_openAccepts]
    exact not_or.mpr ⟨hlo, hicmp⟩
  simp only [Chain.eval, inputChain, List.append_assoc]
  rw [evalLines_base_new hconn hinv, if_neg hopen, evalLines_no_knock hknock, evalLines_admits]
  split <;> rfl

theorem inputChain_eval_knocks (h : Knocks cfg p) :
    (inputChain cfg).eval S p = (.drop, S.insert (knockSet p.family) p.saddr) := by
  obtain ⟨hconn, hinv, hlo, hicmp, hknock⟩ := h
  have hopen : ¬meetsAny S p openAccepts := by
    rw [meetsAny_openAccepts]
    exact not_or.mpr ⟨hlo, hicmp⟩
  simp only [Chain.eval, inputChain, List.append_assoc]
  rw [evalLines_base_new hconn hinv, if_neg hopen, evalLines_knock hknock]
  rfl

/-- A packet that is no knock leaves the sets alone, and is accepted exactly when
the policy says so. -/
theorem inputChain_eval_rest (entries : List Entry) (now : DateTime) (dyn : SetName → IpAddr → Bool)
    (h : ¬Knocks cfg p) :
    let out := (inputChain cfg).eval (rulesetSets cfg entries now dyn) p
    (out.1 = .accept ↔ Accepts cfg entries now dyn p) ∧ out.2 = rulesetSets cfg entries now dyn := by
  simp only [Chain.eval, inputChain, List.append_assoc]
  by_cases hconn : OfConnection p
  · simp [evalLines_base_connection hconn, Accepts, AcceptsWith, hconn]
  by_cases hinv : p.ct = .invalid
  · simp [evalLines_base_invalid hinv, Accepts, AcceptsWith, hconn, hinv]
  by_cases hopen : p.iifLo ∨ SeenInfraIcmp p
  · rw [evalLines_base_new hconn hinv, if_pos (meetsAny_openAccepts.mpr hopen)]
    simp only [Option.getD_some, Accepts, AcceptsWith, ← or_assoc]
    simp [hconn, hinv, hopen]
  · obtain ⟨hlo, hicmp⟩ := not_or.mp hopen
    have hknock : ¬KnockMatch cfg p := fun hm => h ⟨hconn, hinv, hlo, hicmp, hm⟩
    have heval := inputChain_eval_new (S := rulesetSets cfg entries now dyn) hconn hinv hlo hicmp hknock
    simp only [Chain.eval, inputChain, List.append_assoc] at heval
    have hadmits : meetsAny (rulesetSets cfg entries now dyn) p (sshAccepts cfg ++ tailAccepts) = true ↔
        SshAdmits cfg dyn p ∨ PublicAdmits cfg p ∨ AllowAdmits entries now p := admits_iff
    rw [heval, Accepts, AcceptsWith, ← hadmits, ← or_assoc (a := p.iifLo = true)]
    simp [hconn, hinv, hopen, hknock]

theorem not_accepts_of_knocks (h : Knocks cfg p) : ¬Accepts cfg entries now dyn p := by
  obtain ⟨hconn, -, hlo, hicmp, hknock⟩ := h
  intro hacc
  rcases hacc with hacc | ⟨-, hacc | hacc | hacc⟩
  · exact hconn hacc
  · exact hlo hacc
  · exact hicmp hacc
  · exact hacc.1 hknock

/-! ## The policy -/

/-- The chain implements the policy on a packet exactly if what it accepts there is what
the policy permits: everything else of it holds of every packet. -/
theorem implementsPolicy_iff_accepts :
    ImplementsPolicy cfg entries now dyn p ↔
      (Accepts cfg entries now dyn p ↔ Permits cfg entries now dyn p) := by
  have hscript : renderApply cfg entries now = (rulesetTable cfg entries now).script :=
    renderApply_eq_script cfg entries now
  have hchains : (rulesetTable cfg entries now).chains.filter (·.hook == "input") = [inputChain cfg] := by
    unfold rulesetTable
    cases cfg.forwardAllowlistOnly <;> rfl
  unfold ImplementsPolicy
  by_cases hknock : Knocks cfg p
  · have hnot : ¬Accepts cfg entries now dyn p := not_accepts_of_knocks hknock
    simp only [inputChain_eval_knocks hknock, hscript, hchains, hknock, hnot]
    simp
  · obtain ⟨haccepts, hsets⟩ := inputChain_eval_rest entries now dyn hknock
    simp only [haccepts, hsets, hscript, hchains, hknock]
    simp

theorem seen_or_hidden (h : InfraIcmp p) : SeenInfraIcmp p ∨ HiddenInfraIcmp p := by
  by_cases hfam : p.family = .ipv6
  · by_cases hext : p.exthdrs = []
    · exact .inl ⟨h, fun _ => hext⟩
    · exact .inr ⟨h, hfam, hext⟩
  · exact .inl ⟨h, fun hfam' => (hfam hfam').elim⟩

theorem HiddenInfraIcmp.not_seen (h : HiddenInfraIcmp p) : ¬SeenInfraIcmp p := fun hseen => h.2.2 (hseen.2 h.2.1)

theorem HiddenInfraIcmp.is_icmpv6 (h : HiddenInfraIcmp p) : p.is .icmpv6 := by
  obtain ⟨⟨-, hicmp, -⟩ | ⟨hfam, -⟩, hfam', -⟩ := h
  · exact hicmp
  · cases hfam.symm.trans hfam'

/-- A hidden message is let in by its source alone. -/
theorem HiddenInfraIcmp.accepts_iff (h : HiddenInfraIcmp p) : Accepts cfg entries now dyn p ↔
    OfConnection p ∨ p.ct ≠ .invalid ∧ (p.iifLo ∨ AllowAdmits entries now p) := by
  have hnot {l4 : L4} (hne : l4 ≠ .icmpv6) : ¬p.is l4 = true := fun hl4 => hne (Packet.is_unique hl4 h.is_icmpv6)
  have hknock : ¬KnockMatch cfg p := fun ⟨_, _, hudp, _⟩ => hnot (by decide) hudp
  have hssh : ¬SshAdmits cfg dyn p := fun hadm => hnot (by decide) hadm.1
  have hpublic : ¬PublicAdmits cfg p := by
    rintro (⟨htcp, -⟩ | ⟨hudp, -⟩)
    · exact hnot (by decide) htcp
    · exact hnot (by decide) hudp
  unfold Accepts AcceptsWith
  simp only [h.not_seen, hknock, hssh, hpublic, false_or, not_false_eq_true, true_and]

theorem HiddenInfraIcmp.permits_iff (h : HiddenInfraIcmp p) : Permits cfg entries now dyn p ↔
    OfConnection p ∨ p.ct ≠ .invalid := by
  unfold Permits AcceptsWith
  simp only [h.1, true_or, or_true, and_true]

/-- The rendered chain implements the policy on a packet exactly if it is no listed ICMPv6
message behind an extension header, or one whose fate no ICMP rule decides: it belongs to a
connection or to none at all, comes over loopback, or its source is allowed. -/
theorem renderApply_implements_policy_iff (cfg : RulesetConfig) (entries : List Entry) (now : DateTime)
    (dyn : SetName → IpAddr → Bool) (p : Packet) :
    ImplementsPolicy cfg entries now dyn p ↔
      (HiddenInfraIcmp p → OfConnection p ∨ p.ct = .invalid ∨ p.iifLo ∨ AllowAdmits entries now p) := by
  rw [implementsPolicy_iff_accepts]
  by_cases hhidden : HiddenInfraIcmp p
  · rw [hhidden.accepts_iff, hhidden.permits_iff]
    simp only [hhidden, forall_const]
    tauto
  · have hseen : SeenInfraIcmp p ↔ InfraIcmp p :=
      ⟨fun h => h.1, fun h => (seen_or_hidden h).resolve_right hhidden⟩
    have hsame : Accepts cfg entries now dyn p ↔ Permits cfg entries now dyn p := by
      unfold Accepts Permits AcceptsWith
      rw [hseen]
    exact iff_of_true hsame fun h => (hhidden h).elim

/-- A neighbour solicitation of a host on the link, behind a hop-by-hop options header. -/
def hopByHopSolicitation : Packet :=
  ⟨false, .v6 (BitVec.ofNat 128 0xfe800000000000000000000000000009), .untracked, false, 0, [.hopByHop], 58, [135, 0]⟩

theorem hopByHopSolicitation_hidden : HiddenInfraIcmp hopByHopSolicitation :=
  ⟨.inl ⟨rfl, rfl, 135, rfl, List.mem_cons_self ..⟩, rfl, List.cons_ne_nil _ _⟩

/-- The policy lets it in, and the default ruleset drops it. -/
theorem hopByHopSolicitation_dropped :
    let S := rulesetSets .default [] 0 fun _ _ => false
    Permits .default [] 0 (fun _ _ => false) hopByHopSolicitation ∧
      (inputChain .default).eval S hopByHopSolicitation = (.drop, S) ∧
      ¬ImplementsPolicy .default [] 0 (fun _ _ => false) hopByHopSolicitation := by
  have hpermits : Permits .default [] 0 (fun _ _ => false) hopByHopSolicitation :=
    hopByHopSolicitation_hidden.permits_iff.mpr (.inr (by decide))
  have hnot : ¬Accepts .default [] 0 (fun _ _ => false) hopByHopSolicitation := by
    rw [hopByHopSolicitation_hidden.accepts_iff]
    rintro ((hct | hct) | ⟨-, hlo | ⟨e, he, -⟩⟩)
    · cases hct
    · cases hct
    · cases hlo
    · cases he
  have hknock : ¬Knocks .default hopByHopSolicitation := by
    rintro ⟨-, -, -, -, k, hk, -⟩
    cases hk
  obtain ⟨haccepts, hsets⟩ := inputChain_eval_rest [] 0 (fun _ _ => false) hknock
  refine ⟨hpermits, Prod.ext ?_ hsets, fun h => hnot ((implementsPolicy_iff_accepts.mp h).mpr hpermits)⟩
  cases hverdict : ((inputChain .default).eval (rulesetSets .default [] 0 fun _ _ => false) hopByHopSolicitation).1 with
  | accept => exact (hnot (haccepts.mp hverdict)).elim
  | drop => rfl

/-! ## The forward gate -/

/-- A new connection to a forward, neither from an unexpired target of the family of its
source nor, as it arrived, to a public port of its protocol. -/
def GateDrops (cfg : RulesetConfig) (entries : List Entry) (now : DateTime) (p : Packet) : Prop :=
  p.ct = .new ∧ p.ctDnat ∧
    (¬∃ e ∈ entries, e.isExpired now = false ∧ netFamily e.target = p.family ∧ e.target.Contains p.saddr) ∧
    ¬(p.is .tcp ∧ ∃ r ∈ cfg.publicTcp, r.contains p.ctOrigDport) ∧
    ¬(p.is .udp ∧ ∃ r ∈ cfg.publicUdp, r.contains p.ctOrigDport)

/-- A packet of no new connection to a forward passes the gate. -/
theorem forwardChain_eval_other (h : ¬(p.ct = .new ∧ p.ctDnat)) : forwardChain.eval S p = (.accept, S) := by
  have hdnat : (Match.holds S p (.ctState [.new]) && Match.holds S p .ctStatusDnat) = false := by
    simpa [Match.holds] using h
  have hlast : Rule.eval S p ⟨[.ctState [.new], .ctStatusDnat], [.counter], .drop⟩ = none := by
    simp [Rule.eval, hdnat]
  unfold Chain.eval forwardChain
  dsimp only
  rw [acceptLines, evalLines_accepts, evalLines_rule, hlast, evalLines_nil]
  split <;> rfl

/-- A packet of a new connection to a forward is dropped unless its source or its port is
in one of the sets. -/
theorem forwardChain_eval_new (hnew : p.ct = .new) (hdnat : p.ctDnat) :
    forwardChain.eval S p =
      (if S.addr (allowSet p.family) p.saddr = true ∨ (p.is .tcp ∧ S.port .publicTcp p.ctOrigDport) ∨
          (p.is .udp ∧ S.port .publicUdp p.ctOrigDport) then .accept else .drop, S) := by
  have hfam := saddr_families_iff (S := S) (p := p) allowSet
  have hlast : Rule.eval S p ⟨[.ctState [.new], .ctStatusDnat], [.counter], .drop⟩ = some (.drop, S) := by
    simp [Rule.eval, Match.holds, Stmt.exec, hnew, hdnat]
  have hmeets : meetsAny S p [[.ctState [.established, .related]],
      [.ctState [.new], .ctStatusDnat, .saddrIn .ipv4 .allow4],
      [.ctState [.new], .ctStatusDnat, .saddrIn .ipv6 .allow6],
      [.ctState [.new], .ctStatusDnat, .l4proto .tcp, .ctOrigDport .publicTcp],
      [.ctState [.new], .ctStatusDnat, .l4proto .udp, .ctOrigDport .publicUdp]] = true ↔
      S.addr (allowSet p.family) p.saddr = true ∨ (p.is .tcp ∧ S.port .publicTcp p.ctOrigDport) ∨
        (p.is .udp ∧ S.port .publicUdp p.ctOrigDport) := by
    rw [← hfam]
    simp [meetsAny, Match.holds, hnew, hdnat, allowSet, or_assoc]
  unfold Chain.eval forwardChain
  dsimp only [List.cons_append, List.nil_append]
  rw [acceptLines, evalLines_accepts, evalLines_rule, hlast]
  simp only [hmeets]
  split <;> rfl

/-- Asking for the gate adds its chain in front of the closing brace and changes nothing
else. The chain, evaluated with the rendered set contents, drops exactly the packets of new
connections to forwards that are neither on the allowlist nor to a public port. -/
theorem renderApply_gate (cfg : RulesetConfig) (entries : List Entry) (now : DateTime)
    (dyn : SetName → IpAddr → Bool) (p : Packet) :
    let plain := { cfg with forwardAllowlistOnly := false }
    let gated := { cfg with forwardAllowlistOnly := true }
    (∃ body, renderApply plain entries now = body ++ "\x7d\n" ∧
      renderApply gated entries now = body ++ forwardChain.text ++ "\x7d\n") ∧
    (rulesetTable gated entries now).sets = (rulesetTable plain entries now).sets ∧
    (rulesetTable gated entries now).chains = (rulesetTable plain entries now).chains ++ [forwardChain] ∧
    ((forwardChain.eval (rulesetSets gated entries now dyn) p).1 = .drop ↔ GateDrops cfg entries now p) := by
  intro plain gated
  refine ⟨?_, rfl, rfl, ?_⟩
  · rw [renderApply_eq_script, renderApply_eq_script]
    exact Table.script_concat_chain (rulesetTable plain entries now) forwardChain
  · have hallow : (rulesetSets gated entries now dyn).addr (allowSet p.family) p.saddr = true ↔
        ∃ e ∈ entries, e.isExpired now = false ∧ netFamily e.target = p.family ∧ e.target.Contains p.saddr :=
      rulesetSets_allow p.family p.saddr
    have htcp : (rulesetSets gated entries now dyn).port .publicTcp p.ctOrigDport = true ↔
        ∃ r ∈ cfg.publicTcp, r.contains p.ctOrigDport := rulesetSets_publicTcp p.ctOrigDport
    have hudp : (rulesetSets gated entries now dyn).port .publicUdp p.ctOrigDport = true ↔
        ∃ r ∈ cfg.publicUdp, r.contains p.ctOrigDport := rulesetSets_publicUdp p.ctOrigDport
    by_cases hct : p.ct = .new ∧ p.ctDnat
    · rw [forwardChain_eval_new hct.1 hct.2, GateDrops, ← hallow, ← htcp, ← hudp]
      simp only [hct, true_and, ← not_or]
      split
      · next h => exact ⟨(fun heq => by cases heq), fun hnot => (hnot h).elim⟩
      · next h => exact ⟨fun _ => h, fun _ => rfl⟩
    · rw [forwardChain_eval_other hct]
      exact ⟨(fun heq => by cases heq), fun h => (hct ⟨h.1, h.2.1⟩).elim⟩

end Ipgate
