-- SUMMARY: Resolving the port forwards of the store, and installing them as the NAT table of the kernel.
import Ipgate.Agent.Reconcile

/-!
# Port forwards

A pass takes the rules from the store, resolves each to an interface and
addresses, hands all that resolve to the kernel at once, and then writes the
addresses it found back to the store. They are what a later pass falls back to
when a name does not resolve.
-/

namespace Ipgate

open Net Act

/-! ## Resolving -/

/-- A rule with everything resolved: a name to its address, `auto` to an interface. -/
structure ResolvedForward where
  proto : ForwardProto
  iface : String
  listen : PortRange
  remoteIp : BitVec 32
  destPort : PortRange
  sourceIp : BitVec 32
  deriving DecidableEq

/-- What the host answers about its interfaces and about names, at one time. -/
structure HostEnv where
  defaultRouteIface : Option String
  /-- The first IPv4 address the system resolver has for a name. -/
  lookup : String → Option (BitVec 32)
  firstIpv4 : String → Option (BitVec 32)
  ifaceHasIpv4 : String → BitVec 32 → Bool

/-- An address literal stands for itself, everything else is looked up. -/
def resolveIpv4 (env : HostEnv) (host : String) : Option (BitVec 32) :=
  let host := Text.trim host
  (parseIpv4 host).orElse fun _ => env.lookup host

def orError {ε α : Type} (e : ε) : Option α → Except ε α
  | some a => .ok a
  | none => .error e

/-- The interface of a rule. -/
def resolveIface (env : HostEnv) (rule : ForwardRule) : Except String String :=
  match rule.iface with
  | some i =>
    -- The name goes into a script between quotes.
    if validIfaceName i then .ok i
    else .error ("非法网卡名 " ++ Text.debug i ++ "（仅允许字母数字与 . _ -，≤15）")
  | none => orError "无默认路由网卡，且未指定 iface" env.defaultRouteIface

/-- The address packets are sent on from. An address that has left the interface is
replaced by the one that is there. -/
def resolveSource (env : HostEnv) (iface : String) : ForwardSource → Except String (BitVec 32)
  | .auto => orError ("网卡 " ++ iface ++ " 无 IPv4，无法做 SNAT 源") (env.firstIpv4 iface)
  | .ip ip =>
    if env.ifaceHasIpv4 iface ip then .ok ip
    else orError ("源 " ++ ipv4String ip ++ " 不在网卡 " ++ iface ++ " 上，且该网卡无可用 IPv4")
      (env.firstIpv4 iface)

/-- The address of the target, with `prev` for a host that does not resolve. -/
def resolveTarget (env : HostEnv) (rule : ForwardRule) (prev : Option (BitVec 32)) : Except String (BitVec 32) :=
  match resolveIpv4 env rule.destHost with
  | some ip => .ok ip
  | none => orError ("解析 " ++ rule.destHost ++ " 失败且无历史 IP") prev

/-- Nothing is forwarded to the host itself and the like. A name can be bound anew, so
this is checked after every resolution. -/
def checkTarget (ip : BitVec 32) : Except String Unit :=
  match forbiddenForwardTarget ip with
  | some why => .error ("目标 " ++ ipv4String ip ++ " 被拒：" ++ why)
  | none => .ok ()

def resolveOne (env : HostEnv) (rule : ForwardRule) (prev : Option (BitVec 32)) :
    Except String ResolvedForward := do
  let iface ← resolveIface env rule
  let remoteIp ← resolveTarget env rule prev
  checkTarget remoteIp
  let sourceIp ← resolveSource env iface rule.source
  return ⟨rule.proto, iface, rule.listen, remoteIp, rule.destPort, sourceIp⟩

/-- What a pass found out. -/
structure Resolution where
  resolved : List ResolvedForward
  map : ForwardId → Option (BitVec 32)
  warnings : List String

def insertResolved (map : ForwardId → Option (BitVec 32)) (id : ForwardId) (ip : BitVec 32) :
    ForwardId → Option (BitVec 32) :=
  fun i => if i = id then some ip else map i

def skipWarning (rule : ForwardRule) (e : String) : String :=
  rule.iface.getD "auto" ++ ":" ++ toString rule.listen.start ++ "→" ++ rule.destHost ++ " 跳过：" ++ e

/-- One rule of a pass. -/
def resolveRule (env : ForwardRule → HostEnv) (prev : ForwardId → Option (BitVec 32)) (acc : Resolution)
    (rule : ForwardRule) : Resolution :=
  match resolveOne (env rule) rule (prev rule.id) with
  | .ok rf => { acc with map := insertResolved acc.map rule.id rf.remoteIp, resolved := acc.resolved ++ [rf] }
  | .error e => { acc with warnings := acc.warnings ++ [skipWarning rule e] }

/-- Resolve all rules of the store. The host may answer every rule differently. -/
def resolveAll (env : ForwardRule → HostEnv) (s : State) : Resolution :=
  s.forwards.foldl (resolveRule env s.resolvedIp) ⟨[], fun _ => none, []⟩

/-! ## Installing -/

/-- The NAT table of the kernel. -/
structure NatBackend (κ : Type) where
  /-- Rebuild the whole table, atomically. -/
  applyNat : List ResolvedForward → κ → Except String Unit × κ
  /-- Delete the table. -/
  flushNat : κ → Except String Unit × κ

section Install

variable {κ : Type} (H : Host κ) (N : NatBackend κ)

/-- Install the rules, or delete the table when there are none. -/
def installNat (resolved : List ResolvedForward) : Act (World κ) String Unit := fun w =>
  let r := if resolved.isEmpty then N.flushNat w.host else N.applyNat resolved w.host
  (r.1, { w with host := r.2 })

/-- Install what a pass resolved. The addresses are kept when the kernel has taken
the table. -/
def commitForwards (r : Resolution) : Act (World κ) String Unit := do
  installNat N r.resolved
  onStore fun s => ((), s.setResolved r.map)
  .ignore (callSave H)

/-- A pass: how many rules are installed, and why others are not. -/
def applyNow (env : ForwardRule → HostEnv) : Act (World κ) String (ℕ × List String) := do
  let w ← .get
  let r := resolveAll env w.store
  commitForwards H N r
  return (r.resolved.length, r.warnings)

/-- One round of the resolve loop, with the hash that the loop remembers and with the
one it remembers afterwards. What it remembers already it does not install again. -/
def resolveTick {τ : Type} [DecidableEq τ] (hash : List ResolvedForward → τ) (env : ForwardRule → HostEnv)
    (lastHash : Option τ) : Act (World κ) String (Option τ) := do
  let w ← .get
  let r := resolveAll env w.store
  let h := hash r.resolved
  if lastHash = some h then return lastHash
  else
    match ← .attempt (commitForwards H N r) with
    | .ok () => return some h
    | .error _ => return lastHash

end Install

/-! ## What a pass finds -/

section Spec

variable {env : ForwardRule → HostEnv} {prev : ForwardId → Option (BitVec 32)} {acc : Resolution}
variable {rules : List ForwardRule} {s : State} {id : ForwardId} {ip : BitVec 32}

/-- The rule resolves, to the address. -/
def ResolvesTo (env : ForwardRule → HostEnv) (prev : ForwardId → Option (BitVec 32)) (rule : ForwardRule)
    (ip : BitVec 32) : Prop :=
  ∃ rf, resolveOne (env rule) rule (prev rule.id) = .ok rf ∧ rf.remoteIp = ip

/-- A rule resolves when each of its parts does. -/
theorem resolveOne_eq_ok {env : HostEnv} {rule : ForwardRule} {prev : Option (BitVec 32)} {rf : ResolvedForward} :
    resolveOne env rule prev = .ok rf ↔ ∃ iface remoteIp sourceIp, resolveIface env rule = .ok iface ∧
      resolveTarget env rule prev = .ok remoteIp ∧ checkTarget remoteIp = .ok () ∧
      resolveSource env iface rule.source = .ok sourceIp ∧
      rf = ⟨rule.proto, iface, rule.listen, remoteIp, rule.destPort, sourceIp⟩ := by
  constructor
  · intro h
    obtain ⟨iface, hiface, h⟩ := Except.bind_eq_ok.mp h
    obtain ⟨remoteIp, htarget, h⟩ := Except.bind_eq_ok.mp h
    obtain ⟨_, hcheck, h⟩ := Except.bind_eq_ok.mp h
    obtain ⟨sourceIp, hsource, h⟩ := Except.bind_eq_ok.mp h
    cases h
    exact ⟨iface, remoteIp, sourceIp, hiface, htarget, hcheck, hsource, rfl⟩
  · intro h
    obtain ⟨iface, remoteIp, sourceIp, hiface, htarget, hcheck, hsource, rfl⟩ := h
    refine Except.bind_eq_ok.mpr ⟨iface, hiface, Except.bind_eq_ok.mpr ⟨remoteIp, htarget, ?_⟩⟩
    exact Except.bind_eq_ok.mpr ⟨(), hcheck, Except.bind_eq_ok.mpr ⟨sourceIp, hsource, rfl⟩⟩

/-- The target of a resolved rule is what the name resolved to, or what it had before. -/
theorem resolveOne_remoteIp {env : HostEnv} {rule : ForwardRule} {prev : Option (BitVec 32)} {rf : ResolvedForward}
    (h : resolveOne env rule prev = .ok rf) : resolveIpv4 env rule.destHost = some rf.remoteIp ∨
      resolveIpv4 env rule.destHost = none ∧ prev = some rf.remoteIp := by
  obtain ⟨iface, remoteIp, sourceIp, -, htarget, -, -, rfl⟩ := resolveOne_eq_ok.mp h
  unfold resolveTarget at htarget
  split at htarget
  · next ip hip =>
    cases htarget
    exact .inl hip
  · next hnone =>
    cases prev with
    | none => cases htarget
    | some ip =>
      cases htarget
      exact .inr ⟨hnone, rfl⟩

/-- The ports, the protocol and a given interface of a rule are kept. -/
theorem resolveOne_fields {env : HostEnv} {rule : ForwardRule} {prev : Option (BitVec 32)} {rf : ResolvedForward}
    (h : resolveOne env rule prev = .ok rf) : rf.proto = rule.proto ∧ rf.listen = rule.listen ∧
      rf.destPort = rule.destPort ∧ resolveIface env rule = .ok rf.iface := by
  obtain ⟨iface, remoteIp, sourceIp, hiface, -, -, -, rfl⟩ := resolveOne_eq_ok.mp h
  exact ⟨rfl, rfl, rfl, hiface⟩

theorem resolveIface_some {env : HostEnv} {rule : ForwardRule} {i iface : String} (hrule : rule.iface = some i)
    (h : resolveIface env rule = .ok iface) : iface = i := by
  unfold resolveIface at h
  rw [hrule] at h
  dsimp only at h
  split at h
  · cases h
    rfl
  · cases h

theorem resolved_foldl : (rules.foldl (resolveRule env prev) acc).resolved =
    acc.resolved ++ rules.filterMap fun rule => (resolveOne (env rule) rule (prev rule.id)).toOption := by
  induction rules generalizing acc with
  | nil => simp
  | cons rule rules ih =>
    rw [List.foldl_cons, ih, List.filterMap_cons]
    unfold resolveRule
    cases resolveOne (env rule) rule (prev rule.id) with
    | ok rf => simp [Except.toOption]
    | error e => simp [Except.toOption]

/-- A pass installs what its rules resolve to. -/
theorem resolveAll_resolved : (resolveAll env s).resolved =
    s.forwards.filterMap fun rule => (resolveOne (env rule) rule (s.resolvedIp rule.id)).toOption := by
  unfold resolveAll
  rw [resolved_foldl]
  rfl

theorem mem_resolveAll {rf : ResolvedForward} : rf ∈ (resolveAll env s).resolved ↔
    ∃ rule ∈ s.forwards, resolveOne (env rule) rule (s.resolvedIp rule.id) = .ok rf := by
  rw [resolveAll_resolved, List.mem_filterMap]
  exact exists_congr fun rule => and_congr_right fun _ => Except.toOption_eq_some

theorem map_foldl (h : (rules.foldl (resolveRule env prev) acc).map id = some ip) :
    (∃ rule ∈ rules, rule.id = id ∧ ResolvesTo env prev rule ip) ∨ acc.map id = some ip := by
  induction rules generalizing acc with
  | nil => exact .inr h
  | cons rule rules ih =>
    rcases ih h with ⟨r, hr, hid, hto⟩ | hacc
    · exact .inl ⟨r, List.mem_cons_of_mem rule hr, hid, hto⟩
    · unfold resolveRule at hacc
      split at hacc
      · next rf hone =>
        simp only [insertResolved] at hacc
        split at hacc
        · next heq => exact .inl ⟨rule, List.mem_cons_self .., heq.symm, rf, hone, Option.some.inj hacc⟩
        · exact .inr hacc
      · exact .inr hacc

/-- An address a pass keeps is what a rule of the store resolved to. -/
theorem resolveAll_map (h : (resolveAll env s).map id = some ip) :
    ∃ rule ∈ s.forwards, rule.id = id ∧ ResolvesTo env s.resolvedIp rule ip := by
  rcases map_foldl h with hrule | hnone
  · exact hrule
  · cases hnone

theorem map_foldl_other (h : ∀ rule ∈ rules, rule.id ≠ id) :
    (rules.foldl (resolveRule env prev) acc).map id = acc.map id := by
  induction rules generalizing acc with
  | nil => rfl
  | cons rule rules ih =>
    obtain ⟨hne, hrest⟩ := List.forall_mem_cons.mp h
    rw [List.foldl_cons, ih hrest]
    unfold resolveRule
    split
    · exact if_neg (Ne.symm hne)
    · rfl

theorem map_foldl_of_mem {rule : ForwardRule} (hids : State.IdsApart rules) (hmem : rule ∈ rules)
    (hto : ResolvesTo env prev rule ip) : (rules.foldl (resolveRule env prev) acc).map rule.id = some ip := by
  induction rules generalizing acc with
  | nil => cases hmem
  | cons r rules ih =>
    unfold State.IdsApart at hids
    rw [List.map_cons, List.nodup_cons] at hids
    obtain ⟨hhead, htail⟩ := hids
    cases List.mem_cons.mp hmem with
    | inl heq =>
      subst heq
      obtain ⟨rf, hone, rfl⟩ := hto
      have hother : ∀ r ∈ rules, r.id ≠ rule.id := fun r hr hid => hhead (List.mem_map.mpr ⟨r, hr, hid⟩)
      rw [List.foldl_cons, map_foldl_other hother]
      unfold resolveRule
      rw [hone]
      exact if_pos rfl
    | inr hrest => exact ih htail hrest

/-- Where ids are apart, a pass keeps for a rule what it resolved to. -/
theorem resolveAll_map_iff {rule : ForwardRule} (hids : State.IdsApart s.forwards) (hmem : rule ∈ s.forwards) :
    (resolveAll env s).map rule.id = some ip ↔ ResolvesTo env s.resolvedIp rule ip := by
  constructor
  · intro h
    obtain ⟨r, hr, hid, hto⟩ := resolveAll_map h
    have heq : r = rule := List.inj_on_of_nodup_map hids hr hmem hid
    exact heq ▸ hto
  · exact map_foldl_of_mem hids hmem

end Spec

/-! ## What a rule needs -/

/-- The interface of a rule: the one it names, if the name is valid, and otherwise that of the
default route. -/
def ifaceOf (env : HostEnv) (rule : ForwardRule) : Option String :=
  match rule.iface with
  | some i => if validIfaceName i then some i else none
  | none => env.defaultRouteIface

/-- The interface has an IPv4 address for the source of a rule. -/
def hasIpv4 (env : HostEnv) (iface : String) : ForwardSource → Bool
  | .auto => (env.firstIpv4 iface).isSome
  | .ip ip => env.ifaceHasIpv4 iface ip || (env.firstIpv4 iface).isSome

/-- The interface of the rule is there and has an IPv4 address. -/
def sendable (env : HostEnv) (rule : ForwardRule) : Bool :=
  (ifaceOf env rule).any fun iface => hasIpv4 env iface rule.source

theorem sendable_valid {env : HostEnv} {rule : ForwardRule} (h : sendable env rule) :
    ∀ i ∈ rule.iface, validIfaceName i := by
  intro i hi
  have hi : rule.iface = some i := hi
  unfold sendable ifaceOf at h
  rw [hi] at h
  dsimp only at h
  split at h
  · next hvalid => exact hvalid
  · cases h

theorem resolveIface_eq_ok {env : HostEnv} {rule : ForwardRule} {i : String} :
    resolveIface env rule = .ok i ↔ ifaceOf env rule = some i := by
  unfold resolveIface ifaceOf
  cases rule.iface with
  | some j =>
    dsimp only
    split <;> simp
  | none => cases env.defaultRouteIface <;> simp [orError]

theorem resolveSource_isOk {env : HostEnv} {i : String} {source : ForwardSource} :
    (∃ ip, resolveSource env i source = .ok ip) ↔ hasIpv4 env i source := by
  cases source with
  | auto => cases h : env.firstIpv4 i <;> simp [resolveSource, orError, hasIpv4, h]
  | ip ip =>
    unfold resolveSource hasIpv4
    dsimp only
    split
    · next hhas => simp [hhas]
    · next hhas => cases h : env.firstIpv4 i <;> simp [orError, hhas]

theorem checkTarget_eq_ok {ip : BitVec 32} : checkTarget ip = .ok () ↔ forbiddenForwardTarget ip = none := by
  unfold checkTarget
  cases forbiddenForwardTarget ip <;> simp

theorem resolveTarget_eq_ok {env : HostEnv} {rule : ForwardRule} {prev : Option (BitVec 32)} {ip : BitVec 32} :
    resolveTarget env rule prev = .ok ip ↔ (resolveIpv4 env rule.destHost).or prev = some ip := by
  unfold resolveTarget
  cases resolveIpv4 env rule.destHost with
  | some ip' => simp
  | none => cases prev <;> simp [orError]

/-- A rule resolves to an address when its interface can send, the host has the address or, as
it does not resolve, had it before, and the address is permitted. -/
theorem resolvesTo_iff {env : ForwardRule → HostEnv} {prev : ForwardId → Option (BitVec 32)} {rule : ForwardRule}
    {ip : BitVec 32} : ResolvesTo env prev rule ip ↔ sendable (env rule) rule ∧ forbiddenForwardTarget ip = none ∧
      (resolveIpv4 (env rule) rule.destHost).or (prev rule.id) = some ip := by
  unfold ResolvesTo sendable
  simp only [resolveOne_eq_ok, resolveIface_eq_ok, resolveTarget_eq_ok, checkTarget_eq_ok, Option.any_eq_true]
  constructor
  · intro h
    obtain ⟨rf, ⟨i, ip', source, hiface, htarget, hcheck, hsource, rfl⟩, rfl⟩ := h
    exact ⟨⟨i, hiface, resolveSource_isOk.mp ⟨source, hsource⟩⟩, hcheck, htarget⟩
  · intro h
    obtain ⟨⟨i, hiface, hsource⟩, hcheck, htarget⟩ := h
    obtain ⟨source, hsource⟩ := resolveSource_isOk.mpr hsource
    exact ⟨_, ⟨i, ip, source, hiface, htarget, hcheck, hsource, rfl⟩, rfl⟩

end Ipgate
