-- SUMMARY: A fragment of nftables for address translation: chains whose first matching rule rewrites a packet, and their text.
import Ipgate.Lib.Nft

/-!
# Address translation with nftables

The first packet of a connection runs through the chains of a table. In each chain the
first rule it matches acts on it: `dnat` gives it another destination and some port of a
range, `snat` another source. A packet that matches no rule is left as it is.
-/

namespace NftNat

open Net Nft

/-! ## Packets and rules -/

/-- What the rules can see of an IPv4 packet, and what they can change in it. -/
structure Packet where
  iif : String
  saddr : BitVec 32
  daddr : BitVec 32
  l4proto : UInt8
  dport : Option UInt16
  ct : CtState
  deriving DecidableEq

inductive Match where
  | iifname (name : String)
  | daddr (ip : BitVec 32)
  | dport (l4 : L4) (start stop : UInt16)
  | ctState (states : List CtState)

inductive Action where
  | accept
  | dnat (ip : BitVec 32) (start stop : UInt16)
  | snat (ip : BitVec 32)

structure Rule where
  matches_ : List Match
  action : Action

inductive ChainType where
  | nat
  | filter

/-- A chain that accepts what matches no rule. -/
structure Chain where
  name : String
  type : ChainType
  hook : String
  priority : Int
  rules : List Rule

structure Table where
  name : String
  chains : List Chain

/-! ## Meaning -/

def Match.holds (p : Packet) : Match → Bool
  | .iifname name => p.iif = name
  | .daddr ip => p.daddr = ip
  | .dport l4 start stop =>
    p.l4proto == l4.number && p.dport.any fun port => start ≤ port && port ≤ stop
  | .ctState states => states.contains p.ct

def Rule.applies (p : Packet) (r : Rule) : Bool := r.matches_.all (·.holds p)

/-- What an action can make of a packet. -/
inductive Action.Makes (p : Packet) : Action → Packet → Prop where
  | accept : Makes p .accept p
  | dnat {ip : BitVec 32} {start stop port : UInt16} : start ≤ port → port ≤ stop →
      Makes p (.dnat ip start stop) { p with daddr := ip, dport := some port }
  | snat {ip : BitVec 32} : Makes p (.snat ip) { p with saddr := ip }

/-- The action of the first rule the packet matches. -/
def action (rules : List Rule) (p : Packet) : Option Action :=
  (rules.find? (·.applies p)).map Rule.action

/-- What a chain can make of a packet. -/
def Chain.Makes (c : Chain) (p p' : Packet) : Prop :=
  match action c.rules p with
  | some a => a.Makes p p'
  | none => p' = p

/-- Several rules with one action for each item of a list: the first item with a rule that the
packet matches decides. -/
theorem action_flatMap {α β : Type} {items : List α} {parts : α → List β} {rule : α → β → Rule}
    {act : α → Action} (hact : ∀ a b, (rule a b).action = act a) (p : Packet) :
    action (items.flatMap fun a => (parts a).map (rule a)) p =
      (items.find? fun a => (parts a).any fun b => (rule a b).applies p).map act := by
  unfold action
  induction items with
  | nil => rfl
  | cons a items ih =>
    rw [List.flatMap_cons, List.find?_append, List.find?_cons]
    cases hfind : ((parts a).map (rule a)).find? (·.applies p) with
    | none =>
      have hnone : ((parts a).any fun b => (rule a b).applies p) = false := by
        rw [List.any_eq_false]
        intro b hb
        exact List.find?_eq_none.mp hfind (rule a b) (List.mem_map_of_mem hb)
      rw [hnone, Option.none_or]
      exact ih
    | some r =>
      obtain ⟨b, hb, rfl⟩ := List.mem_map.mp (List.mem_of_find?_eq_some hfind)
      have happlies : ((parts a).any fun b => (rule a b).applies p) = true :=
        List.any_eq_true.mpr ⟨b, hb, List.find?_some hfind⟩
      rw [happlies, Option.some_or, Option.map_some, hact]
      rfl

/-! ## Text -/

def Match.text : Match → String
  | .iifname name => "iifname \"" ++ name ++ "\""
  | .daddr ip => "ip daddr " ++ ipv4String ip
  | .dport l4 start stop => l4.text ++ " dport " ++ portsText start stop
  | .ctState states => "ct state " ++ joinWith "," (states.map CtState.text)

def Action.text : Action → String
  | .accept => "accept"
  | .dnat ip start stop => "dnat to " ++ ipv4String ip ++ ":" ++ portsText start stop
  | .snat ip => "snat to " ++ ipv4String ip

def Rule.text (r : Rule) : String := joinWith " " (r.matches_.map Match.text ++ [r.action.text])

def ChainType.text : ChainType → String
  | .nat => "nat"
  | .filter => "filter"

def Chain.text (c : Chain) : String :=
  "    chain " ++ c.name ++ " \x7b\n" ++
    indented ("type " ++ c.type.text ++ " hook " ++ c.hook ++ " priority " ++
      toString c.priority ++ "; policy accept;") ++
    String.join (c.rules.map fun r => indented r.text) ++ "    \x7d\n"

/-- The script that replaces the table. -/
def Table.script (t : Table) : String :=
  "table " ++ t.name ++ "\n" ++ "delete table " ++ t.name ++ "\n" ++
    "table " ++ t.name ++ " \x7b\n" ++ String.join (t.chains.map Chain.text) ++ "\x7d\n"

end NftNat
