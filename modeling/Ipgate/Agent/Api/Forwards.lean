-- SUMMARY: The request handlers for port forwards, the agent's own ones and those of the dnat tool.
import Ipgate.Agent.Api.Handlers
import Ipgate.Agent.Dnat.Adapter

/-!
# Handlers for port forwards

A request for a forward is checked, changes the store under its lock and saves it, and
then makes a pass over all forwards. A rule of dnat is taken over by adding one of the
agent's own, and removing that of dnat when the new one is in effect.
-/

namespace Ipgate

open Net Act

/-! ## Errors -/

def badIface : ApiError := ⟨.badRequest, "网卡名非法（仅允许字母数字与 . _ -，≤15 字符）"⟩

def badTarget (why : String) : ApiError := ⟨.badRequest, "目标地址不允许：" ++ why⟩

def emptyTarget : ApiError := ⟨.badRequest, "目标主机为空"⟩

def dnatClash : ApiError := ⟨.conflict, "监听端口已被本机 dnat 规则占用，请先迁移该 dnat 规则或改用其它端口"⟩

def forwardClash : ApiError := ⟨.conflict, "监听端口与另一条转发重叠"⟩

def forwardNotFound : ApiError := ⟨.notFound, "转发规则不存在"⟩

def dnatNotPresent : ApiError := ⟨.notFound, "本机未启用 dnat 适配"⟩

def badDnatKey : ApiError := ⟨.badRequest, "非法 dnat 键"⟩

def dnatNotFound : ApiError := ⟨.notFound, "dnat 规则不存在"⟩

def dnatPortsUnsupported (e : String) : ApiError :=
  ⟨.badRequest, "该 dnat 规则的端口映射 native 不支持，无法迁移：" ++ e⟩

def migrationClash : ApiError := ⟨.conflict, "目标 (网卡,端口) 已有 native 转发，迁移会覆盖它；请先处理后再迁移"⟩

def notLive : ApiError :=
  ⟨.nftFailure, "native 规则未能解析/生效（如目标域名暂时解析失败），已保留原 dnat 规则，请稍后重试迁移"⟩

def dnatNotRemoved (e : String) : ApiError :=
  ⟨.nftFailure,
    "native 已建好并生效，但移除原 dnat 规则失败（dnat 仍在服务，可重试迁移或手动 dnat-rm）：" ++ e⟩

/-! ## Views -/

def forwardView (s : State) (rule : ForwardRule) : ForwardView :=
  let resolvedIp := s.resolvedIp rule.id
  ⟨rule, resolvedIp, resolvedIp.isSome⟩

/-- A rule of the agent's own in the list of all forwards. -/
def nativeUnified (s : State) (rule : ForwardRule) : UnifiedForwardView :=
  let resolvedIp := s.resolvedIp rule.id
  { origin := .ipgate, proto := rule.proto, iface := rule.iface, listen := rule.listen, destHost := rule.destHost
    destPort := rule.destPort, source := rule.source, note := rule.note, resolvedIp := resolvedIp
    active := resolvedIp.isSome, caps := ⟨true, true, false⟩, conflict := false, id := some rule.id
    dnatKey := none }

/-- Note on a forward that one of the other origin listens on ports of its interface. -/
def markConflict (defaultIface : Option String) (others : List UnifiedForwardView) (v : UnifiedForwardView) :
    UnifiedForwardView :=
  let eff (v : UnifiedForwardView) := v.iface.orElse fun _ => defaultIface
  if (eff v).isSome && others.any fun o => eff o = eff v && v.listen.overlaps o.listen then
    { v with conflict := true }
  else v

/-- What a list learns of the host: how reading the files of dnat turns out, and the interface of the default
route. -/
structure ListReads where
  conf : Except String Unit
  state : Except String Unit
  defaultIface : Option String

/-- All forwards: first the agent's own, then those of dnat where it is in use. -/
def listForwards (encodeKey : String → String) (a : DnatAdapter) (reads : ListReads) (s : State) :
    UnifiedForwardList :=
  let native := s.forwards.map (nativeUnified s)
  let dnat := if a.present then ((a.readConf reads.conf).readState reads.state).list encodeKey else []
  ⟨native.map (markConflict reads.defaultIface dnat) ++ dnat.map (markConflict reads.defaultIface native),
    s.forwardRevision⟩

/-! ## Checks -/

/-- The interface name and a target given as an address. A name is checked when it is
resolved. -/
def validateForwardInput (iface : Option String) (destHost : String) : Except ApiError Unit :=
  if iface.any fun i => !validIfaceName i then .error badIface
  else
    match (parseIpv4 (Text.trim destHost)).bind forbiddenForwardTarget with
    | some why => .error (badTarget why)
    | none => .ok ()

/-- The rules of dnat listen on ports of the interface, as far as they can be read. -/
def clashesWithDnat (a : DnatAdapter) (conf : Except String Unit) (defaultIface : Option String)
    (req : AddForwardRequest) : Bool :=
  a.present &&
    match req.iface.orElse fun _ => defaultIface with
    | some eff => (a.readConf conf).rules.any fun d => d.iface = eff && req.listen.overlaps d.listen
    | none => false

/-- What a request for a forward has to meet, new or changed. -/
def checkForwardRequest (a : DnatAdapter) (conf : Except String Unit) (defaultIface : Option String)
    (req : AddForwardRequest) : Except ApiError Unit := do
  (validatePorts req.listen req.destPort).mapError fun e => ⟨.badRequest, e⟩
  if Text.trim req.destHost = "" then .error emptyTarget
  else do
    validateForwardInput req.iface req.destHost
    if clashesWithDnat a conf defaultIface req then .error dnatClash else .ok ()

/-- Another rule listens on ports of the same interface. -/
def Forwarding.overlapsOther (s : State) (defaultIface : Option String) (id : ForwardId) (req : AddForwardRequest) :
    Bool :=
  let eff (i : Option String) := i.orElse fun _ => defaultIface
  s.forwards.any fun f => f.id ≠ id && eff f.iface = eff req.iface && f.listen.overlaps req.listen

/-! ## The agent's own forwards -/

/-- What a request learns of the host while it runs: the interface of the default route and the conf of
dnat when it is compared with dnat, the interface again when it is compared with other rules, and what its
pass finds. -/
structure ForwardReads where
  dnatIface : Option String
  dnatConf : Except String Unit
  otherIface : Option String
  pass : ForwardRule → HostEnv

section Native

variable {κ : Type} (H : Host κ) (N : NatBackend κ) (a : DnatAdapter) (reads : ForwardReads)

/-- Install all forwards as they are stored now. -/
def applyForwards (env : ForwardRule → HostEnv) : Act (World κ) ApiError Unit := do
  let _ ← .mapErr nftFailure (applyNow H N env)
  return ()

/-- The view of a rule after the pass. -/
def viewForward (rule : ForwardRule) : Act (World κ) ApiError ForwardView := do
  let w ← .get
  return forwardView w.store ((w.store.findForward rule.id).getD rule)

def addForward (who : DeviceId) (req : AddForwardRequest) (now : DateTime) (id : ForwardId) :
    Act (World κ) ApiError ForwardView := do
  .lift (checkForwardRequest a reads.dnatConf reads.dnatIface req)
  let rule ← onStore fun s => s.addForward req who now id
  saveStore H
  applyForwards H N reads.pass
  viewForward rule

/-- Change a rule if it is there. -/
def changeForward (id : ForwardId) (req : AddForwardRequest) (s : State) : Option ForwardRule × State :=
  match s.updateForward id req with
  | some (rule, s') => (some rule, s')
  | none => (none, s)

def updateForward (id : ForwardId) (req : AddForwardRequest) : Act (World κ) ApiError ForwardView := do
  .lift (checkForwardRequest a reads.dnatConf reads.dnatIface req)
  let w ← .get
  rejectIf (Forwarding.overlapsOther w.store reads.otherIface id req) forwardClash
  let changed ← onStore (changeForward id req)
  match changed with
  | none => .fail forwardNotFound
  | some rule => do
    saveStore H
    applyForwards H N reads.pass
    viewForward rule

def removeForward (env : ForwardRule → HostEnv) (id : ForwardId) : Act (World κ) ApiError Unit := do
  let removed ← onStore fun s => s.removeForward id
  rejectIf (!removed) forwardNotFound
  saveStore H
  applyForwards H N env

end Native

section Spec

variable {s : State} {id : ForwardId} {req : AddForwardRequest} {old : ForwardRule}

theorem changeForward_some (hfind : s.findForward id = some old) : changeForward id req s =
    (some (State.updatedRule old req), { s with
      forwards := State.replaceForward id (State.updatedRule old req) s.forwards
      resolved := if old.destHost ≠ req.destHost then State.dropResolved s.resolved id else s.resolved
      forwardRevision := s.forwardRevision + 1 }) := by
  unfold changeForward State.updateForward
  rw [hfind]

theorem updatedRule_id (hfind : s.findForward id = some old) : (State.updatedRule old req).id = id := by
  show old.id = id
  simpa using List.find?_some hfind

theorem idsApart_changeForward (h : State.IdsApart s.forwards) : State.IdsApart (changeForward id req s).2.forwards := by
  cases hfind : s.findForward id with
  | none =>
    unfold changeForward State.updateForward
    rw [hfind]
    exact h
  | some old =>
    rw [changeForward_some hfind]
    unfold State.IdsApart
    rw [State.replaceForward_ids (updatedRule_id hfind)]
    exact h

end Spec

/-! ## Forwards of dnat -/

/-- The agent's world and the dnat tool beside it. -/
structure Site (κ : Type) where
  world : World κ
  dnat : DnatAdapter

/-- What a request on a rule of dnat learns while it runs. -/
structure DnatReads where
  /-- Whether the file can be read when the rule is looked up. -/
  lookup : Except String Unit
  /-- The interface of the default route when a rule is compared. -/
  defaultIface : ForwardRule → Option String
  pass : ForwardRule → HostEnv
  /-- What the pass after a failure finds. -/
  undo : ForwardRule → HostEnv
  conf : ConfAnswers

section Dnat

variable {κ : Type} (H : Host κ) (N : NatBackend κ) (decodeKey : String → Option String) (reads : DnatReads)

def Site.onWorld {ε α : Type} (m : Act (World κ) ε α) : Act (Site κ) ε α :=
  .zoom Site.world (fun w site => { site with world := w }) m

/-- Take the rules with the key from the file of dnat. -/
def callRemovePrefix (answers : ConfAnswers) (key : String) : Act (Site κ) String Bool := fun site =>
  let r := removePrefix answers key site.dnat.conf
  (r.1, { site with dnat := { site.dnat with conf := r.2 } })

/-- The key that a client has sent. -/
def dnatPrefixFromKey (a : DnatAdapter) (key : String) : Except ApiError String :=
  if !a.present then .error dnatNotPresent
  else
    match decodeKey key with
    | some key => .ok key
    | none => .error badDnatKey

def removeDnatForward (key : String) : Act (Site κ) ApiError Unit := do
  let site ← .get
  let dnatKey ← .lift (dnatPrefixFromKey decodeKey site.dnat key)
  let removed ← .mapErr nftFailure (callRemovePrefix reads.conf dnatKey)
  .onlyIf (!removed) (.fail dnatNotFound)

/-- A rule of the agent listens on ports of the interface of the rule of dnat. -/
def clobbers (s : State) (defaultIface : ForwardRule → Option String) (rule : DnatRule) : Bool :=
  s.forwards.any fun f =>
    (f.iface.orElse fun _ => defaultIface f) = some rule.iface && f.listen.overlaps rule.listen

/-- The rule that a migration is about, once it has passed the checks. -/
def migratable (site : Site κ) (key : String) : Except ApiError (String × DnatRule) := do
  let dnatKey ← dnatPrefixFromKey decodeKey site.dnat key
  match if reads.lookup.isOk then site.dnat.findRuleByPrefix dnatKey else none with
  | none => .error dnatNotFound
  | some rule => do
    let req := dnatRuleToAddRequest rule
    (validatePorts req.listen req.destPort).mapError dnatPortsUnsupported
    validateForwardInput req.iface req.destHost
    if clobbers site.world.store reads.defaultIface rule then .error migrationClash
    else .ok (dnatKey, rule)

/-- Take the new rule out again. -/
def undoMigration (id : ForwardId) : Act (Site κ) ApiError Unit := do
  let _ ← Site.onWorld (onStore fun s => s.removeForward id)
  Site.onWorld (.ignore (callSave H))
  Site.onWorld (.ignore (applyNow H N reads.undo))

/-- Go on when the new rule is installed: where it is in effect, remove the rule of dnat, and
otherwise the new one. -/
def finishMigration (dnatKey : String) (newRule : ForwardRule) : Act (Site κ) ApiError ForwardView := do
  let site ← .get
  if (site.world.store.resolvedIp newRule.id).isNone then do
    undoMigration H N reads newRule.id
    .fail notLive
  else do
    -- A failure here is not undone: the agent's rule has taken over.
    let _ ← .mapErr dnatNotRemoved (callRemovePrefix reads.conf dnatKey)
    Site.onWorld (viewForward newRule)

def migrateDnatForward (who : DeviceId) (key : String) (now : DateTime) (id : ForwardId) :
    Act (Site κ) ApiError ForwardView := do
  let site ← .get
  let (dnatKey, rule) ← .lift (migratable decodeKey reads site key)
  -- First the agent's rule, then that of dnat: the port is served all the time.
  let newRule ← Site.onWorld (onStore fun s => s.addForward (dnatRuleToAddRequest rule) who now id)
  Site.onWorld (saveStore H)
  Site.onWorld (applyForwards H N reads.pass)
  finishMigration H N reads dnatKey newRule

end Dnat

end Ipgate
