-- SUMMARY: What stored and resolved data can put into the script of the NAT table.
import Ipgate.Agent.Nft.Nat

/-!
# The template of the NAT script

The name of an interface goes into the script as it is. A name that `validIfaceName`
accepts has no character that could end the string or the line it stands in, and so the
script has the lines of the template and no others.

`resolveOne` checks a name that the rule gives. The name of the default route it takes
as the host reports it.
-/

namespace Ipgate

open Net
open Nft (L4 indented portsText)

/-! ## The interface of the default route -/

/-- The word behind the first `dev`. -/
def afterDev : List (List Char) → Option (List Char)
  | [] => none
  | tok :: rest => if tok = "dev".toList then rest.head? else afterDev rest

/-- `default_route_iface`, from what `ip route show default` printed, if it could be run. -/
def defaultRouteIface (stdout : Option String) : Option String :=
  stdout.bind fun text => (afterDev (Text.splitWhitespace text.toList)).map String.ofList

/-! ## Characters that mean something to nft -/

/-- A character that ends a string, a block, a statement or a line. -/
def isMeta (c : Char) : Bool := ['"', '\x7b', '\x7d', ';', '\n'].contains c

def metas (s : String) : List Char := s.toList.filter isMeta

@[simp] theorem metas_append (s t : String) : metas (s ++ t) = metas s ++ metas t := by
  simp [metas]

theorem metas_eq_nil {s : String} (h : ∀ c ∈ s.toList, isMeta c = false) : metas s = [] := by
  rw [metas, List.filter_eq_nil_iff]
  intro c hc
  simp [h c hc]

/-- The characters of a literal are there without a decoding. -/
theorem metas_ofList (cs : List Char) : metas (String.ofList cs) = cs.filter isMeta := by
  rw [metas, String.toList_ofList]

theorem not_mem_ofList {cs : List Char} (h : '\n' ∉ cs) : '\n' ∉ (String.ofList cs).toList := by
  rw [String.toList_ofList]
  exact h

/-- A text has no line feed if it has no such character. -/
theorem not_mem_of_metas {s : String} (h : '\n' ∉ metas s) : '\n' ∉ s.toList := by
  intro hmem
  exact h (List.mem_filter.mpr ⟨hmem, rfl⟩)

theorem isMeta_of_alphanum {c : Char} (h : c.isAlphanum) : isMeta c = false := by
  by_contra hmeta
  rw [Bool.not_eq_false, isMeta, List.contains_iff_mem] at hmeta
  simp only [List.mem_cons, List.not_mem_nil, or_false] at hmeta
  rcases hmeta with rfl | rfl | rfl | rfl | rfl <;> exact absurd h (by decide)

@[simp] theorem metas_repr (n : Nat) : metas n.repr = [] := by
  refine metas_eq_nil fun c hc => isMeta_of_alphanum ?_
  rw [Nat.toList_repr] at hc
  have hdigit : c.isDigit := Nat.isDigit_of_mem_toDigits (by decide) (by decide) hc
  simp [Char.isAlphanum, hdigit]

@[simp] theorem metas_port (port : UInt16) : metas (toString port) = [] :=
  metas_repr port.toNat

@[simp] theorem metas_portsText (start stop : UInt16) : metas (portsText start stop) = [] := by
  have hdash : metas "-" = [] := by decide
  unfold portsText
  split <;> simp [hdash]

@[simp] theorem metas_ipv4String (ip : BitVec 32) : metas (ipv4String ip) = [] := by
  have hdot : metas "." = [] := by decide
  simp [ipv4String, hdot]

theorem metas_iface {name : String} (h : validIfaceName name = true) : metas name = [] := by
  refine metas_eq_nil fun c hc => ?_
  simp only [validIfaceName, Bool.and_eq_true, List.all_eq_true] at h
  have hchar := h.2 c hc
  simp only [validIfaceChar, Bool.or_eq_true, beq_iff_eq] at hchar
  rcases hchar with ((halnum | rfl) | rfl) | rfl
  · exact isMeta_of_alphanum halnum
  · decide
  · decide
  · decide

@[simp] theorem metas_l4 (proto : L4) : metas proto.text = [] := by cases proto <;> decide

/-! ## The lines of the script -/

/-- The lines of the template, with a line in each chain for each protocol of each forward. -/
def natLines (forwards : List ResolvedForward) : List String :=
  let rules (text : ResolvedForward → L4 → String) := (perProto forwards text).map ("        " ++ ·)
  ["table ip ipgate_nat", "delete table ip ipgate_nat", "table ip ipgate_nat \x7b",
    "    chain prerouting \x7b", "        type nat hook prerouting priority -90; policy accept;"] ++
  rules dnatText ++
  ["    \x7d", "    chain postrouting \x7b",
    "        type nat hook postrouting priority 110; policy accept;"] ++
  rules snatText ++
  ["    \x7d", "    chain forward \x7b",
    "        type filter hook forward priority 0; policy accept;",
    "        ct state established,related accept"] ++
  rules acceptText ++
  ["    \x7d", "\x7d"]

/-- The script is the template: split at line feeds it has its lines, and the rules of the
forwards have no quote, brace, semicolon or line feed but the quotes around the interface. -/
structure Templated (forwards : List ResolvedForward) : Prop where
  lines : (renderNatApply forwards).toList.splitOn '\n' =
    (natLines forwards).map String.toList ++ [[]]
  iface : ∀ f ∈ forwards, metas f.iface = []
  rules : ∀ f ∈ forwards, ∀ proto ∈ f.proto.l4Protos,
    metas (dnatText f proto) = ['"', '"'] ∧ metas (snatText f proto) = [] ∧
      metas (acceptText f proto) = ['"', '"']

/-- The text is these lines, each with a line feed behind it. -/
theorem renderNatApply_lines (forwards : List ResolvedForward) :
    renderNatApply forwards = String.join ((natLines forwards).map (· ++ "\n")) := by
  have hrules (text : ResolvedForward → L4 → String) :
      String.join (((perProto forwards text).map ("        " ++ ·)).map (· ++ "\n")) =
        String.join ((perProto forwards text).map indented) := by
    rw [List.map_map]
    rfl
  have hhead : String.join (List.map (· ++ "\n")
      ["table ip ipgate_nat", "delete table ip ipgate_nat", "table ip ipgate_nat \x7b",
        "    chain prerouting \x7b",
        "        type nat hook prerouting priority -90; policy accept;"]) =
      "table " ++ natTableName ++ "\n" ++ "delete table " ++ natTableName ++ "\n" ++
        "table " ++ natTableName ++ " \x7b\n" ++ "    chain prerouting \x7b\n" ++
        indented "type nat hook prerouting priority -90; policy accept;" := by
    decide +kernel
  have hpostrouting : String.join (List.map (· ++ "\n")
      ["    \x7d", "    chain postrouting \x7b",
        "        type nat hook postrouting priority 110; policy accept;"]) =
      "    \x7d\n" ++ "    chain postrouting \x7b\n" ++
        indented "type nat hook postrouting priority 110; policy accept;" := by
    decide +kernel
  have hforward : String.join (List.map (· ++ "\n")
      ["    \x7d", "    chain forward \x7b",
        "        type filter hook forward priority 0; policy accept;",
        "        ct state established,related accept"]) =
      "    \x7d\n" ++ "    chain forward \x7b\n" ++
        indented "type filter hook forward priority 0; policy accept;" ++
        indented "ct state established,related accept" := by
    decide +kernel
  have htail : String.join (List.map (· ++ "\n") ["    \x7d", "\x7d"]) =
      "    \x7d\n" ++ "\x7d\n" := by
    decide +kernel
  unfold renderNatApply natLines
  simp only [List.map_append, String.join_append, hrules, hhead, hpostrouting, hforward, htail,
    String.append_assoc]

/-- With harmless interface names the script is the template. -/
theorem templated_of_valid {forwards : List ResolvedForward}
    (hvalid : ∀ f ∈ forwards, validIfaceName f.iface = true) : Templated forwards := by
  have hrules (f : ResolvedForward) (hf : f ∈ forwards) (proto : L4) :
      metas (dnatText f proto) = ['"', '"'] ∧ metas (snatText f proto) = [] ∧
        metas (acceptText f proto) = ['"', '"'] := by
    have hiface := metas_iface (hvalid f hf)
    -- the pieces of the template
    have hopen : metas "iifname \"" = ['"'] := metas_ofList _
    have hclose : metas "\" " = ['"'] := metas_ofList _
    have hcloseDaddr : metas "\" ip daddr " = ['"'] := metas_ofList _
    have hdaddr : metas "ip daddr " = [] := metas_ofList _
    have hdport : metas " dport " = [] := metas_ofList _
    have hdnat : metas " dnat to " = [] := metas_ofList _
    have hsnat : metas " snat to " = [] := metas_ofList _
    have haccept : metas " ct state new accept" = [] := metas_ofList _
    have hcolon : metas ":" = [] := metas_ofList _
    have hblank : metas " " = [] := metas_ofList _
    refine ⟨?_, ?_, ?_⟩
    · unfold dnatText
      simp only [metas_append, metas_l4, metas_portsText, metas_ipv4String, hiface, hopen, hclose, hdport, hdnat, hcolon]
      rfl
    · unfold snatText
      simp only [metas_append, metas_l4, metas_portsText, metas_ipv4String, hdaddr, hblank, hdport, hsnat]
      rfl
    · unfold acceptText
      simp only [metas_append, metas_l4, metas_portsText, metas_ipv4String, hiface, hopen, hcloseDaddr, hblank, hdport,
        haccept]
      rfl
  refine ⟨?_, fun f hf => metas_iface (hvalid f hf), fun f hf proto _ => hrules f hf proto⟩
  -- no line of the template has a line feed, and no rule has one
  have hrule {text : ResolvedForward → L4 → String}
      (htext : ∀ f ∈ forwards, ∀ proto, '\n' ∉ metas (text f proto)) :
      ∀ s ∈ (perProto forwards text).map ("        " ++ ·), '\n' ∉ metas s := by
    intro s hs
    obtain ⟨t, ht, rfl⟩ := List.mem_map.mp hs
    obtain ⟨f, hf, hproto⟩ := List.mem_flatMap.mp ht
    obtain ⟨proto, -, rfl⟩ := List.mem_map.mp hproto
    have hindent : metas "        " = [] := metas_ofList _
    rw [metas_append, hindent]
    exact htext f hf proto
  have hdnat := hrule fun f hf proto => by rw [(hrules f hf proto).1]; decide
  have hsnat := hrule fun f hf proto => by rw [(hrules f hf proto).2.1]; decide
  have haccept := hrule fun f hf proto => by rw [(hrules f hf proto).2.2]; decide
  have hline : ∀ l ∈ (natLines forwards).map String.toList, '\n' ∉ l := by
    intro l hl
    obtain ⟨s, hs, rfl⟩ := List.mem_map.mp hl
    clear hl
    simp only [natLines, List.mem_append, List.mem_cons, List.not_mem_nil, or_false] at hs
    rcases hs with (((((hs | hs) | hs) | hs) | hs) | hs) | hs
    · rcases hs with rfl | rfl | rfl | rfl | rfl
      all_goals exact not_mem_ofList (by decide)
    · exact not_mem_of_metas (hdnat s hs)
    · rcases hs with rfl | rfl | rfl
      all_goals exact not_mem_ofList (by decide)
    · exact not_mem_of_metas (hsnat s hs)
    · rcases hs with rfl | rfl | rfl | rfl
      all_goals exact not_mem_ofList (by decide)
    · exact not_mem_of_metas (haccept s hs)
    · rcases hs with rfl | rfl
      all_goals exact not_mem_ofList (by decide)
  have hended (s : String) : (s ++ "\n").toList = s.toList ++ ['\n'] := by
    rw [String.toList_append]
    exact congrArg (s.toList ++ ·) String.toList_ofList
  rw [renderNatApply_lines, String.toList_join, List.flatMap_map, ← Text.splitOn_ended hline,
    List.flatMap_map]
  simp only [hended]

/-! ## What resolving lets through -/

/-- Whatever the cache, the resolver and the host say, no forbidden target is resolved to. -/
theorem resolveOne_target {env : HostEnv} {rule : ForwardRule} {prev : Option (BitVec 32)}
    {rf : ResolvedForward} (h : resolveOne env rule prev = .ok rf) :
    forbiddenForwardTarget rf.remoteIp = none := by
  obtain ⟨iface, remoteIp, sourceIp, -, -, hcheck, -, rfl⟩ := resolveOne_eq_ok.mp h
  unfold checkTarget at hcheck
  split at hcheck
  · cases hcheck
  · assumption

/-- The rule names a forbidden address itself, so it never resolves. -/
def NamesForbidden (rule : ForwardRule) : Prop :=
  ∃ ip, parseIpv4 (Text.trim rule.destHost) = some ip ∧ forbiddenForwardTarget ip ≠ none

/-- A rule that gives its interface, or for which the default route has a valid one, resolves
to a valid interface. -/
theorem resolveOne_iface {env : HostEnv} {rule : ForwardRule} {prev : Option (BitVec 32)}
    {rf : ResolvedForward} (h : resolveOne env rule prev = .ok rf)
    (hroute : rule.iface = none →
      (∀ name, env.defaultRouteIface = some name → validIfaceName name = true) ∨
      NamesForbidden rule) : validIfaceName rf.iface = true := by
  obtain ⟨-, -, -, hiface⟩ := resolveOne_fields h
  unfold resolveIface at hiface
  cases hrule : rule.iface with
  | some i =>
    rw [hrule] at hiface
    dsimp only at hiface
    split at hiface
    · next hvalid =>
      cases hiface
      exact hvalid
    · cases hiface
  | none =>
    rw [hrule] at hiface
    cases hdefault : env.defaultRouteIface with
    | none =>
      rw [hdefault] at hiface
      cases hiface
    | some name =>
      rw [hdefault] at hiface
      cases hiface
      cases hroute hrule with
      | inl hvalid => exact hvalid _ hdefault
      | inr hforbidden =>
        obtain ⟨ip, hparse, hne⟩ := hforbidden
        have hresolve : resolveIpv4 env rule.destHost = some ip := by simp [resolveIpv4, hparse]
        have hip : ip = rf.remoteIp := by
          cases resolveOne_remoteIp h with
          | inl hnow => exact Option.some.inj (hresolve.symm.trans hnow)
          | inr hbefore => exact nomatch hresolve.symm.trans hbefore.1
        exact (hne (hip ▸ resolveOne_target h)).elim

/-- Resolved data stay within the template: the interface of each rule that resolves is valid
and its target allowed, and the script of all of them is the template. -/
structure NatSafe (s : State) (env : ForwardRule → HostEnv) : Prop where
  resolved : ∀ rule ∈ s.forwards, ∀ rf,
    resolveOne (env rule) rule (s.resolvedIp rule.id) = .ok rf →
    validIfaceName rf.iface = true ∧ forbiddenForwardTarget rf.remoteIp = none
  templated : Templated (resolveAll env s).resolved
  targets : ∀ f ∈ (resolveAll env s).resolved, forbiddenForwardTarget f.remoteIp = none

/-- A host that answers every question: names resolve, and interfaces have addresses. -/
def answering (iface : Option String) : HostEnv :=
  ⟨iface, fun _ => some (ipv4 10 0 0 9), fun _ => some (ipv4 192 168 1 5), fun _ _ => true⟩

/-- On such a host a rule without an interface takes the one of the default route. -/
theorem resolveOne_answering {rule : ForwardRule} {name : String} (hrule : rule.iface = none)
    (hallowed : ¬NamesForbidden rule) (prev : Option (BitVec 32)) :
    ∃ rf, resolveOne (answering (some name)) rule prev = .ok rf ∧ rf.iface = name := by
  have hiface : resolveIface (answering (some name)) rule = .ok name := by
    unfold resolveIface
    rw [hrule]
    rfl
  obtain ⟨ip, hip, hcheck⟩ : ∃ ip, resolveIpv4 (answering (some name)) rule.destHost = some ip ∧
      forbiddenForwardTarget ip = none := by
    unfold resolveIpv4
    cases hparse : parseIpv4 (Text.trim rule.destHost) with
    | none => exact ⟨ipv4 10 0 0 9, by simp [hparse, answering], by decide +kernel⟩
    | some ip =>
      refine ⟨ip, by simp [hparse], ?_⟩
      by_contra hne
      exact hallowed ⟨ip, hparse, hne⟩
  obtain ⟨source, hsource⟩ : ∃ source,
      resolveSource (answering (some name)) name rule.source = .ok source := by
    cases rule.source with
    | auto => exact ⟨_, rfl⟩
    | ip ip => exact ⟨ip, rfl⟩
  have htarget : resolveTarget (answering (some name)) rule prev = .ok ip := by
    rw [resolveTarget, hip]
  have hok : checkTarget ip = .ok () := by rw [checkTarget, hcheck]
  exact ⟨_, resolveOne_eq_ok.mpr ⟨name, ip, source, hiface, htarget, hok, hsource, rfl⟩, rfl⟩

/-- No forbidden target is ever resolved to. And over every cache and every answer of resolver and
host, with what the default route is fixed for each rule, resolved data stay within the template
exactly when no rule takes an invalid name from the default route. -/
theorem natSafe_iff (rules : List ForwardRule) (routes : ForwardRule → Option String) :
    (∀ env rule prev rf, resolveOne env rule prev = .ok rf →
      forbiddenForwardTarget rf.remoteIp = none) ∧
    ((∀ (s : State) (env : ForwardRule → HostEnv), s.forwards = rules →
      (∀ rule, (env rule).defaultRouteIface = defaultRouteIface (routes rule)) → NatSafe s env) ↔
    ∀ rule ∈ rules, rule.iface = none →
      (∀ name, defaultRouteIface (routes rule) = some name → validIfaceName name = true) ∨
      NamesForbidden rule) := by
  refine ⟨fun _ _ _ _ h => resolveOne_target h, ?_, ?_⟩
  -- a host that answers with the bad name is one of the hosts quantified over
  · intro h rule hmem hrule
    by_contra hbad
    obtain ⟨hname, hallowed⟩ := not_or.mp hbad
    obtain ⟨name, hname⟩ := not_forall.mp hname
    obtain ⟨hdefault, hinvalid⟩ := Classical.not_imp.mp hname
    have hsafe := h { State.default with forwards := rules }
      (fun r => answering (defaultRouteIface (routes r))) rfl fun _ => rfl
    obtain ⟨rf, hone, hiface⟩ :
        ∃ rf, resolveOne (answering (some name)) rule
          (State.resolvedIp { State.default with forwards := rules } rule.id) = .ok rf ∧
          rf.iface = name := resolveOne_answering hrule hallowed _
    rw [← hdefault] at hone
    exact hinvalid (hiface ▸ (hsafe.resolved rule hmem rf hone).1)
  · rintro h s env rfl henv
    have hone (rule : ForwardRule) (hmem : rule ∈ s.forwards) (rf : ResolvedForward)
        (hok : resolveOne (env rule) rule (s.resolvedIp rule.id) = .ok rf) :
        validIfaceName rf.iface = true ∧ forbiddenForwardTarget rf.remoteIp = none := by
      refine ⟨resolveOne_iface hok fun hrule => ?_, resolveOne_target hok⟩
      rw [henv]
      exact h rule hmem hrule
    have hall (f : ResolvedForward) (hf : f ∈ (resolveAll env s).resolved) :
        validIfaceName f.iface = true ∧ forbiddenForwardTarget f.remoteIp = none := by
      obtain ⟨rule, hmem, hok⟩ := mem_resolveAll.mp hf
      exact hone rule hmem f hok
    exact ⟨hone, templated_of_valid fun f hf => (hall f hf).1, fun f hf => (hall f hf).2⟩

/-- A rule without an interface, to a web server. -/
def webRule : ForwardRule :=
  ⟨⟨1⟩, .tcp, none, .single 443, "10.0.0.9", .single 8443, .auto, "", 0, ⟨1⟩⟩

/-- The default route goes over an interface with a quote in its name. Its name ends the string
in the rule, and the rest of the rule becomes a comment. -/
theorem default_route_escapes :
    let env : ForwardRule → HostEnv := fun _ => answering
      (defaultRouteIface (some "default via 10.0.0.1 dev eth0\"accept# proto dhcp"))
    ¬NatSafe { State.default with forwards := [webRule] } env ∧
      (resolveAll env { State.default with forwards := [webRule] }).resolved.map
          (dnatText · .tcp) =
        ["iifname \"eth0\"accept#\" tcp dport 443 dnat to 10.0.0.9:8443"] := by
  intro env
  have hone : resolveOne (env webRule) webRule none = .ok ⟨.tcp, "eth0\"accept#", .single 443,
      ipv4 10 0 0 9, .single 8443, ipv4 192 168 1 5⟩ := by
    decide +kernel
  refine ⟨fun hsafe => ?_, ?_⟩
  · have hvalid := (hsafe.resolved webRule (List.mem_singleton.mpr rfl) _ hone).1
    exact absurd hvalid (by decide +kernel)
  · rw [resolveAll_resolved]
    have hprev : State.resolvedIp { State.default with forwards := [webRule] } webRule.id = none :=
      rfl
    rw [List.filterMap_cons, hprev, hone]
    decide +kernel

end Ipgate
