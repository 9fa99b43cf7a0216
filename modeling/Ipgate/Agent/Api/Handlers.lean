-- SUMMARY: The request handlers for the allowlist, the exposure settings, the public ports and the devices.
import Ipgate.Agent.Reconcile

/-!
# Request handlers

Each handler changes the store under its lock, rebuilds the table where a chain
changes, and saves. The settings are committed only after the kernel has taken
the new table. Times and fresh identifiers are arguments.
-/

namespace Ipgate

open Net Act

/-! ## Errors -/

def internal (e : String) : ApiError := ⟨.internal, e⟩

def nftFailure (e : String) : ApiError := ⟨.nftFailure, e⟩

def entryNotFound : ApiError := ⟨.notFound, "条目不存在"⟩

def allowlistEmpty : ApiError :=
  ⟨.badRequest, "放行名单为空：开启「SSH 仅名单可连」会把所有人（含你自己）挡在外。请先放行你的 IP 再开启。"⟩

def portLabel (r : PortRange) : String :=
  if r.start = r.stop then toString r.start else toString r.start ++ "-" ++ toString r.stop

def publicPortCovers (p : PublicPort) (sshPort : UInt16) : ApiError :=
  ⟨.badRequest, "公开端口 " ++ portLabel p.ports ++ " 包含 SSH 端口 " ++ toString sshPort ++
    "，开启「仅名单可连」不会生效。请先移除该公开端口" ++
    (if p.fromConfig then "（它来自主机的 config.json，需在主机上改配置文件）" else "") ++ "。"⟩

def knockRejected (e : String) : ApiError :=
  ⟨.nftFailure, "SSH 敲门规则加载失败，SSH 保持原状（常见原因：内核/nft 不支持 @th 载荷匹配或动态 set）：" ++ e⟩

def gateRejected (e : String) : ApiError :=
  ⟨.nftFailure,
    "转发名单门加载失败，转发保持对全网开放（常见原因：内核/nft 不支持 ct status / ct original 匹配）：" ++ e⟩

def deviceNotFound : ApiError := ⟨.notFound, "设备不存在"⟩

def portsOutOfRange : ApiError := ⟨.badRequest, "端口须在 1–65535 之间，且起始不大于结束"⟩

def portWouldOpenSsh (sshPort : UInt16) : ApiError :=
  ⟨.badRequest, "SSH 已设为「仅名单可连」，不能把 SSH 端口 " ++ toString sshPort ++
    " 设为公开端口。要对全网开放 SSH，请在「安全」中关闭「仅名单可连」。"⟩

def publicPortNotFound (inConfig : Bool) : ApiError :=
  ⟨.notFound, if inConfig then "该公开端口来自主机的 config.json，需在主机上改配置文件后重启 agent"
    else "公开端口不存在"⟩

/-- What the settings page shows. -/
structure AgentSettings where
  sshAllowlistOnly : Bool
  sshPort : UInt16
  forwardAllowlistOnly : Bool
  forwardGateActive : Bool
  sshKnockPort : Option UInt16
  sshKnockActive : Bool
  deriving DecidableEq

section Handlers

variable {κ : Type} (H : Host κ) (cfg : AgentConfig)

def rejectIf (c : Bool) (e : ApiError) : Act (World κ) ApiError Unit := .onlyIf c (.fail e)

def saveStore : Act (World κ) ApiError Unit := .mapErr internal (callSave H)

/-! ## The allowlist -/

/-- Admit a target: first the store, then the kernel. -/
def allow (who : DeviceId) (req : AllowRequest) (now : DateTime) (id : EntryId) :
    Act (World κ) ApiError Entry := do
  let entry ← onStore fun s => s.allow req who now id
  saveStore H
  .mapErr nftFailure (callAdd H entry)
  return entry

/-- The target a request to revoke is about. -/
def revokeTarget (s : State) : RevokeRequest → Option IpNet
  | .target t => some t
  | .id id => (s.findById id).map Entry.target

def revoke (req : RevokeRequest) : Act (World κ) ApiError Unit := do
  let w ← .get
  match revokeTarget w.store req with
  | none => .fail entryNotFound
  | some target => do
    let removed ← onStore fun s => s.revokeByTarget target
    rejectIf (!removed) entryNotFound
    saveStore H
    .mapErr nftFailure (callRemove H target)

/-! ## Exposure settings -/

def buildSettings (w : World κ) : AgentSettings where
  sshAllowlistOnly := w.store.sshAllowlistOnly
  sshPort := cfg.sshPort
  forwardAllowlistOnly := w.store.forwardAllowlistOnly
  forwardGateActive := w.live.gate
  sshKnockPort := cfg.sshKnock.map SshKnock.port
  sshKnockActive := w.live.knock

/-- Rebuild the table with the given settings, and record what took effect. -/
def reapplyRuleset (flags : RulesetFlags) (entries : List Entry) : Act (World κ) ApiError Applied := do
  let applied ← .mapErr nftFailure (applyRuleset H (cfg.rulesetWith flags) entries)
  .modify fun w => { w with live := Live.record applied }
  return applied

/-- Store a setting, now that the kernel has it. -/
def commit (f : State → State) : Act (World κ) ApiError AgentSettings := do
  onStore fun s => ((), f s)
  saveStore H
  let w ← .get
  return buildSettings cfg w

def setSshExposure (allowlistOnly : Bool) (now : DateTime) : Act (World κ) ApiError AgentSettings := do
  let w ← .get
  let entries := w.store.entries
  -- With an empty allowlist nobody could connect any more.
  rejectIf (allowlistOnly && !entries.any fun e => !e.isExpired now) allowlistEmpty
  let flags := w.store.rulesetFlags.withSsh allowlistOnly
  match if allowlistOnly then cfg.publicPortCoveringSsh flags else none with
  | some p => .fail (publicPortCovers p cfg.sshPort)
  | none => do
    let applied ← reapplyRuleset H cfg flags entries
    match applied.knock with
    | .rejected e => do
      -- Without knocking, devices that change their address would be shut out:
      -- back to the table of the stored settings.
      let _ ← reapplyRuleset H cfg w.store.rulesetFlags entries
      .fail (knockRejected e)
    | _ => commit H cfg fun s => (s.setSshAllowlistOnly allowlistOnly).2

def setForwardExposure (allowlistOnly : Bool) : Act (World κ) ApiError AgentSettings := do
  let w ← .get
  let flags := w.store.rulesetFlags.withForward allowlistOnly
  let applied ← reapplyRuleset H cfg flags w.store.entries
  match applied.gate with
  | .rejected e => .fail (gateRejected e)
  | _ => commit H cfg fun s => (s.setForwardAllowlistOnly allowlistOnly).2

/-! ## Public ports -/

def isPort (proto : ForwardProto) (ports : PortRange) (p : PublicPort) : Bool :=
  p.proto = proto && p.ports = ports

/-- Put the note on the first of the ports that is the given one. -/
def setNote (proto : ForwardProto) (ports : PortRange) (note : String) : List PublicPort → List PublicPort
  | [] => []
  | p :: ps =>
    if isPort proto ports p then { p with note := note } :: ps else p :: setNote proto ports note ps

def listPublicPorts (w : World κ) : List PublicPort := cfg.configPublicPorts ++ w.store.publicPorts

def commitPorts (ports : List PublicPort) : Act (World κ) ApiError (List PublicPort) := do
  onStore fun s => ((), s.setPublicPorts ports)
  saveStore H
  let w ← .get
  return listPublicPorts cfg w

/-- Add a public port; for one that is there only the note changes. -/
def addPublicPort (req : PublicPortRequest) : Act (World κ) ApiError (List PublicPort) := do
  rejectIf (req.ports.start = 0 || !req.ports.isValid) portsOutOfRange
  let note := Text.trim req.note
  let w ← .get
  let ports := w.store.publicPorts
  if ports.any (isPort req.proto req.ports) then
    commitPorts H cfg (setNote req.proto req.ports note ports)
  else do
    let ports := ports ++ [⟨req.proto, req.ports, note, false⟩]
    let flags := w.store.rulesetFlags.withPorts ports
    -- Only the new port is looked at: a conflict in the file is not its fault.
    rejectIf (flags.sshAllowlistOnly && cfg.coversSsh req.proto req.ports) (portWouldOpenSsh cfg.sshPort)
    let _ ← reapplyRuleset H cfg flags w.store.entries
    commitPorts H cfg ports

def removePublicPort (proto : ForwardProto) (range : PortRange) :
    Act (World κ) ApiError (List PublicPort) := do
  let w ← .get
  let ports := w.store.publicPorts.filter fun p => !isPort proto range p
  rejectIf (ports.length = w.store.publicPorts.length)
    (publicPortNotFound (cfg.configPublicPorts.any (isPort proto range)))
  let flags := w.store.rulesetFlags.withPorts ports
  let _ ← reapplyRuleset H cfg flags w.store.entries
  commitPorts H cfg ports

/-! ## Devices -/

def revokeDevice (id : DeviceId) : Act (World κ) ApiError Unit := do
  let removed ← onStore fun s => s.removeDevice id
  rejectIf (!removed) deviceNotFound
  saveStore H

end Handlers

end Ipgate
