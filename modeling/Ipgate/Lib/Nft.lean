-- SUMMARY: A fragment of nftables: packets, set definitions, first-match filter chains, and the script text of a table.
import Ipgate.Lib.Ip
import Ipgate.Lib.Text

/-!
# nftables

The part of nftables a host firewall script uses: address and port sets, filter
chains whose rules are tried in order until one gives a verdict, and the policy
that decides when none does. Set names are a type parameter `ν`. Each construct
has its meaning on packets and its text in an `nft -f` script.
-/

namespace Nft

open Net

/-! ## Packets -/

inductive Family where
  | ipv4
  | ipv6
  deriving DecidableEq

def Family.of : IpAddr → Family
  | .v4 _ => .ipv4
  | .v6 _ => .ipv6

inductive CtState where
  | new
  | established
  | related
  | invalid
  | untracked
  deriving DecidableEq

/-- The transport protocols rules name. -/
inductive L4 where
  | tcp
  | udp
  | icmp
  | icmpv6
  deriving DecidableEq

/-- The IP protocol number. -/
def L4.number : L4 → UInt8
  | .tcp => 6
  | .udp => 17
  | .icmp => 1
  | .icmpv6 => 58

/-- The headers that may stand between an IPv6 header and the transport header. -/
inductive ExtHdr where
  | hopByHop
  | routing
  | fragment
  | auth
  | destOpts
  deriving DecidableEq

/-- The value a Next Header field has for it. -/
def ExtHdr.number : ExtHdr → UInt8
  | .hopByHop => 0
  | .routing => 43
  | .fragment => 44
  | .auth => 51
  | .destOpts => 60

/-- What a rule can see of a packet. The transport header and everything behind
it are raw bytes, and the protocol number is that of the transport header. Only
IPv6 has extension headers in front of it. -/
structure Packet where
  iifLo : Bool
  saddr : IpAddr
  ct : CtState
  ctDnat : Bool
  ctOrigDport : UInt16
  exthdrs : List ExtHdr
  l4proto : UInt8
  th : List UInt8
  deriving DecidableEq

namespace Packet

def is (p : Packet) (l4 : L4) : Bool := p.l4proto == l4.number

theorem is_unique {p : Packet} {l4 l4' : L4} (h : p.is l4 = true) (h' : p.is l4' = true) : l4 = l4' := by
  have hnumber : l4.number = l4'.number := (eq_of_beq h).symm.trans (eq_of_beq h')
  cases l4 <;> cases l4' <;> first | rfl | exact absurd hnumber (by decide)

/-- The Next Header field of the IPv6 header: the first extension header if there
is one, and else the transport protocol. -/
def nexthdr (p : Packet) : UInt8 := (p.exthdrs.head?.map ExtHdr.number).getD p.l4proto

def family (p : Packet) : Family := Family.of p.saddr

/-- The destination port: the second 16-bit word of a TCP or UDP header. -/
def dport (p : Packet) : Option UInt16 :=
  match p.th with
  | _ :: _ :: hi :: lo :: _ => some (hi.toUInt16 * 256 + lo.toUInt16)
  | _ => none

/-- The type field of an ICMP header. -/
def icmpType (p : Packet) : Option UInt8 := p.th.head?

/-- `len` bytes at byte `offset` behind the start of the transport header. -/
def thBytes (p : Packet) (offset len : Nat) : List UInt8 := (p.th.drop offset).take len

/-- No extension header has the number of ICMPv6. -/
theorem nexthdr_icmpv6 (p : Packet) :
    p.nexthdr = L4.number .icmpv6 ↔ p.exthdrs = [] ∧ p.is .icmpv6 := by
  unfold nexthdr is
  cases p.exthdrs with
  | nil => simp
  | cons h hs => cases h <;> simp [ExtHdr.number, L4.number]

end Packet

/-! ## Rules -/

/-- An ICMP type with the name `nft` has for it. -/
structure IcmpType where
  name : String
  code : UInt8

/-- A condition of a rule. -/
inductive Match (ν : Type) where
  | ctState (states : List CtState)
  | ctStatusDnat
  | ctOrigDport (set : ν)
  | iifLo
  | nfproto (family : Family)
  | l4proto (l4 : L4)
  | icmpType (family : Family) (types : List IcmpType)
  | dport (l4 : L4) (port : UInt16)
  | dportIn (l4 : L4) (set : ν)
  /-- `value` stands at a bit offset of the transport header. -/
  | th (offset : Nat) (value : List UInt8)
  | saddrIn (family : Family) (set : ν)

/-- A statement a rule executes before its verdict. -/
inductive Stmt (ν : Type) where
  | counter
  /-- Put the source address into a set, for some seconds. -/
  | updateSaddr (family : Family) (set : ν) (timeout : Nat)

inductive Verdict where
  | accept
  | drop
  deriving DecidableEq

structure Rule (ν : Type) where
  matches_ : List (Match ν)
  stmts : List (Stmt ν)
  verdict : Verdict

/-- A rule that accepts what meets its conditions. -/
def Rule.accept {ν : Type} (ms : List (Match ν)) : Rule ν := ⟨ms, [], .accept⟩

/-- A line of a chain. -/
inductive Line (ν : Type) where
  | rule (r : Rule ν)
  | comment (text : String)

/-- A filter chain with the hook it is registered at. -/
structure Chain (ν : Type) where
  name : String
  hook : String
  priority : Int
  policy : Verdict
  lines : List (Line ν)

/-! ## Sets and tables -/

inductive SetType where
  | ipv4Addr
  | ipv6Addr
  | inetService
  deriving DecidableEq

inductive SetFlag where
  | interval
  | dynamic
  | timeout
  deriving DecidableEq

/-- An element of a set: a network, or an interval of ports. -/
inductive Elem where
  | net (n : IpNet) (timeout : Option Nat)
  | ports (start stop : UInt16)
  deriving DecidableEq

structure SetDef (ν : Type) where
  name : ν
  type : SetType
  flags : List SetFlag
  elements : List Elem

structure Table (ν : Type) where
  name : String
  sets : List (SetDef ν)
  chains : List (Chain ν)

/-! ## Meaning -/

/-- The contents of the sets of a table at one moment. -/
structure Sets (ν : Type) where
  addr : ν → IpAddr → Bool
  port : ν → UInt16 → Bool

def Elem.hasAddr : Elem → IpAddr → Bool
  | .net n _, a => n.Contains a
  | .ports _ _, _ => false

def Elem.hasPort : Elem → UInt16 → Bool
  | .net _ _, _ => false
  | .ports start stop, p => start ≤ p && p ≤ stop

/-- The elements have no address and no port in common. -/
def Elem.Disjoint (x y : Elem) : Prop :=
  (∀ a, ¬(x.hasAddr a ∧ y.hasAddr a)) ∧ ∀ p, ¬(x.hasPort p ∧ y.hasPort p)

/-- An interval set is loaded only if no two of its elements overlap, and a
transaction only as a whole. -/
def Table.Loadable {ν : Type} (t : Table ν) : Prop := ∀ s ∈ t.sets, s.elements.Pairwise Elem.Disjoint

theorem Elem.disjoint_net {m n : IpNet} {t u : Option Nat} :
    Elem.Disjoint (.net m t) (.net n u) ↔ ¬m.Overlaps n := by
  simp [Elem.Disjoint, Elem.hasAddr, Elem.hasPort, IpNet.overlaps_iff]

/-- Intervals of ports of which one ends before the other starts. -/
theorem Elem.disjoint_ports {start stop start' stop' : UInt16} (h : stop < start') :
    Elem.Disjoint (.ports start stop) (.ports start' stop') := by
  refine ⟨fun a ha => Bool.false_ne_true ha.1, fun p hp => ?_⟩
  simp only [Elem.hasPort, Bool.and_eq_true, decide_eq_true_eq] at hp
  exact UInt16.lt_irrefl _ (UInt16.lt_of_lt_of_le h (UInt16.le_trans hp.2.1 hp.1.2))

section Eval

variable {ν : Type} [DecidableEq ν]

/-- The contents a table defines inline. The sets that rules write to have the
contents `dyn` besides. -/
def Table.contents (t : Table ν) (dyn : ν → IpAddr → Bool) : Sets ν where
  addr n a := t.sets.any fun s => s.name = n &&
    (s.elements.any (·.hasAddr a) || (s.flags.contains .dynamic && dyn n a))
  port n p := t.sets.any fun s => s.name = n && s.elements.any (·.hasPort p)

/-- Put an address into one set. -/
def Sets.insert (S : Sets ν) (n : ν) (a : IpAddr) : Sets ν :=
  { S with addr := fun m b => S.addr m b || (m = n && b = a) }

/-- An address rule of one family and a port rule of one protocol match nothing
of another: `nft` puts the dependency in front of them. The protocol of a port
rule is that of the transport header, the one of an ICMPv6 rule the Next Header
of the IPv6 header. -/
def Match.holds (S : Sets ν) (p : Packet) : Match ν → Bool
  | .ctState states => states.contains p.ct
  | .ctStatusDnat => p.ctDnat
  | .ctOrigDport set => S.port set p.ctOrigDport
  | .iifLo => p.iifLo
  | .nfproto f => p.family = f
  | .l4proto l4 => p.is l4
  | .icmpType .ipv4 types =>
    p.family = .ipv4 && p.is .icmp && types.any (fun t => p.icmpType = some t.code)
  | .icmpType .ipv6 types =>
    p.family = .ipv6 && p.nexthdr == L4.number .icmpv6 && types.any (fun t => p.icmpType = some t.code)
  | .dport l4 port => p.is l4 && p.dport = some port
  | .dportIn l4 set => p.is l4 && p.dport.any (S.port set)
  | .th offset value => p.thBytes (offset / 8) value.length = value
  | .saddrIn f set => p.family = f && S.addr set p.saddr

/-- A statement that needs an address the packet does not have ends the rule. -/
def Stmt.exec (p : Packet) (S : Sets ν) : Stmt ν → Option (Sets ν)
  | .counter => some S
  | .updateSaddr f set _ => if p.family = f then some (S.insert set p.saddr) else none

/-- The verdict of a rule and the sets it leaves, if the packet gets to it. -/
def Rule.eval (S : Sets ν) (p : Packet) (r : Rule ν) : Option (Verdict × Sets ν) :=
  if r.matches_.all (·.holds S p) then
    (r.stmts.foldlM (Stmt.exec p) S).map fun S' => (r.verdict, S')
  else none

/-- The first rule that gives a verdict decides. -/
def evalLines (S : Sets ν) (p : Packet) : List (Line ν) → Option (Verdict × Sets ν)
  | [] => none
  | .comment _ :: rest => evalLines S p rest
  | .rule r :: rest => (r.eval S p).or (evalLines S p rest)

def Chain.eval (c : Chain ν) (S : Sets ν) (p : Packet) : Verdict × Sets ν :=
  (evalLines S p c.lines).getD (c.policy, S)

variable {S : Sets ν} {p : Packet}

@[simp] theorem evalLines_nil : evalLines S p [] = none := rfl

@[simp] theorem evalLines_comment (text : String) (rest : List (Line ν)) :
    evalLines S p (.comment text :: rest) = evalLines S p rest := rfl

@[simp] theorem evalLines_rule (r : Rule ν) (rest : List (Line ν)) :
    evalLines S p (.rule r :: rest) = (r.eval S p).or (evalLines S p rest) := rfl

/-- A rule without statements gives its verdict and changes no set. -/
theorem Rule.eval_plain (ms : List (Match ν)) (v : Verdict) :
    Rule.eval S p ⟨ms, [], v⟩ = if ms.all (·.holds S p) then some (v, S) else none := by
  simp [Rule.eval]

/-- Some conjunction of conditions in the list is met. -/
def meetsAny (S : Sets ν) (p : Packet) (mss : List (List (Match ν))) : Bool :=
  mss.any fun ms => ms.all (·.holds S p)

omit [DecidableEq ν] in
theorem meetsAny_append (mss mss' : List (List (Match ν))) :
    meetsAny S p (mss ++ mss') = (meetsAny S p mss || meetsAny S p mss') :=
  List.any_append

theorem Rule.eval_accept (ms : List (Match ν)) :
    Rule.eval S p (.accept ms) = if ms.all (·.holds S p) then some (.accept, S) else none :=
  Rule.eval_plain ms .accept

/-- A group of accepting rules accepts what meets one of them, and leaves
everything else to the rules behind it. -/
theorem evalLines_accepts (mss : List (List (Match ν))) (rest : List (Line ν)) :
    evalLines S p (mss.map (fun ms => .rule (.accept ms)) ++ rest) =
      if meetsAny S p mss then some (.accept, S) else evalLines S p rest := by
  induction mss with
  | nil => simp [meetsAny]
  | cons ms mss ih =>
    rw [List.map_cons, List.cons_append, evalLines_rule, ih, Rule.eval_accept]
    by_cases h : ms.all (·.holds S p) = true
    · simp [meetsAny, h]
    · simp [meetsAny, h]

end Eval

/-! ## Text -/

def joinWith (sep : String) : List String → String
  | [] => ""
  | [x] => x
  | x :: xs => x ++ sep ++ joinWith sep xs

/-- A line of a chain. -/
def indented (s : String) : String := "        " ++ s ++ "\n"

def CtState.text : CtState → String
  | .new => "new"
  | .established => "established"
  | .related => "related"
  | .invalid => "invalid"
  | .untracked => "untracked"

def L4.text : L4 → String
  | .tcp => "tcp"
  | .udp => "udp"
  | .icmp => "icmp"
  | .icmpv6 => "icmpv6"

/-- The family as a network layer protocol. -/
def Family.nfproto : Family → String
  | .ipv4 => "ipv4"
  | .ipv6 => "ipv6"

/-- The family as the header a field is read from. -/
def Family.header : Family → String
  | .ipv4 => "ip"
  | .ipv6 => "ip6"

/-- The ICMP type of a family, with the protocol that has it. -/
def Family.icmpType : Family → String
  | .ipv4 => "ip protocol icmp icmp type"
  | .ipv6 => "ip6 nexthdr icmpv6 icmpv6 type"

def Verdict.text : Verdict → String
  | .accept => "accept"
  | .drop => "drop"

def SetType.text : SetType → String
  | .ipv4Addr => "ipv4_addr"
  | .ipv6Addr => "ipv6_addr"
  | .inetService => "inet_service"

def SetFlag.text : SetFlag → String
  | .interval => "interval"
  | .dynamic => "dynamic"
  | .timeout => "timeout"

def portsText (start stop : UInt16) : String :=
  if start = stop then toString start else toString start ++ "-" ++ toString stop

def Elem.text : Elem → String
  | .net n none => n.toString
  | .net n (some secs) => n.toString ++ " timeout " ++ toString secs ++ "s"
  | .ports start stop => portsText start stop

section Text

variable {ν : Type} [ToString ν]

def Match.text : Match ν → String
  | .ctState states => "ct state " ++ joinWith "," (states.map CtState.text)
  | .ctStatusDnat => "ct status dnat"
  | .ctOrigDport set => "ct original " ++ "proto-dst @" ++ toString set
  | .iifLo => "iif lo"
  | .nfproto f => "meta nfproto " ++ f.nfproto
  | .l4proto l4 => "meta l4proto " ++ l4.text
  | .icmpType f types =>
    f.icmpType ++ " \x7b " ++ joinWith ", " (types.map IcmpType.name) ++ " \x7d"
  | .dport l4 port => l4.text ++ " dport " ++ toString port
  | .dportIn l4 set => l4.text ++ " dport @" ++ toString set
  | .th offset value =>
    "@th," ++ toString offset ++ "," ++ toString (8 * value.length) ++ " 0x" ++ Text.toHex value
  | .saddrIn f set => f.header ++ " saddr @" ++ toString set

def Stmt.text : Stmt ν → String
  | .counter => "counter"
  | .updateSaddr f set secs =>
    "update @" ++ toString set ++ " \x7b " ++ f.header ++ " saddr timeout " ++ toString secs ++
      "s \x7d"

def Rule.text (r : Rule ν) : String :=
  joinWith " " (r.matches_.map Match.text ++ r.stmts.map Stmt.text ++ [r.verdict.text])

def Line.text : Line ν → String
  | .rule r => indented r.text
  | .comment text => indented ("# " ++ text)

def Chain.text (c : Chain ν) : String :=
  "    chain " ++ c.name ++ " \x7b\n" ++
    indented ("type filter hook " ++ c.hook ++ " priority " ++ toString c.priority ++
      "; policy " ++ c.policy.text ++ ";") ++
    String.join (c.lines.map Line.text) ++ "    \x7d\n"

def SetDef.text (s : SetDef ν) : String :=
  let elements := joinWith ", " (s.elements.map Elem.text)
  "    set " ++ toString s.name ++ " \x7b type " ++ s.type.text ++ "; flags " ++
    joinWith ", " (s.flags.map SetFlag.text) ++
    if elements = "" then "; \x7d\n" else "; elements = \x7b " ++ elements ++ " \x7d \x7d\n"

/-- The script that replaces the table: create it if missing, delete it, build it anew. -/
def Table.script (t : Table ν) : String :=
  "table " ++ t.name ++ "\n" ++ "delete table " ++ t.name ++ "\n" ++
    "table " ++ t.name ++ " \x7b\n" ++ String.join (t.sets.map SetDef.text) ++
    String.join (t.chains.map Chain.text) ++ "\x7d\n"

/-- A chain more stands in front of the closing brace. -/
theorem Table.script_concat_chain (t : Table ν) (c : Chain ν) : ∃ body,
    t.script = body ++ "\x7d\n" ∧
      { t with chains := t.chains ++ [c] }.script = body ++ c.text ++ "\x7d\n" := by
  refine ⟨_, rfl, ?_⟩
  unfold Table.script
  simp [String.append_assoc]

end Text

end Nft
