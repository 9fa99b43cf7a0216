-- SUMMARY: All requests of a connection on the whole agent, and which parts of it each kind of request can change.
import Ipgate.Agent.Api.Disk
import Ipgate.Agent.Api.RootPassword
import Ipgate.Agent.Sshd.Switch

/-!
# Requests

A connection answers one message after the other. The allowlist and the forwards have tables of
their own in the kernel. Each kind of request reaches some parts of the agent and the host, and
leaves the others alone, however its calls end.
-/

namespace Ipgate.Dispatch

open Net Act

/-! ## The agent and its host -/

section Halves

variable {α β : Type}

/-- The backend of the first of two tables. -/
def onFirst (B : NftBackend α) : NftBackend (α × β) where
  apply c entries k := ((B.apply c entries k.1).1, (B.apply c entries k.1).2, k.2)
  add entry k := ((B.add entry k.1).1, (B.add entry k.1).2, k.2)
  remove target k := ((B.remove target k.1).1, (B.remove target k.1).2, k.2)
  list k := ((B.list k.1).1, (B.list k.1).2, k.2)

/-- The backend of the second. -/
def onSecond (N : NatBackend β) : NatBackend (α × β) where
  applyNat resolved k := ((N.applyNat resolved k.2).1, k.1, (N.applyNat resolved k.2).2)
  flushNat k := ((N.flushNat k.2).1, k.1, (N.flushNat k.2).2)

end Halves

/-- The agent with its files, those of dnat and of sshd, the tables in the kernel, and what has been
written to chpasswd. -/
structure Agent (α β : Type) where
  site : Site (Machine (α × β))
  sshd : Sshd.Files
  chpasswd : List UInt8

/-! ## Messages -/

/-- A request, with what its handler learns of the clock, of fresh ids and of the host. -/
inductive RpcRequest where
  | listAllowlist
  | allow (req : AllowRequest) (now : DateTime) (id : EntryId)
  | revoke (req : RevokeRequest)
  | whoami
  | sync (order : HashOrder) (now : DateTime)
  | listForwards (reads : ListReads)
  | addForward (req : AddForwardRequest) (reads : ForwardReads) (now : DateTime) (id : ForwardId)
  | updateForward (id : ForwardId) (rule : AddForwardRequest) (reads : ForwardReads)
  | removeForward (id : ForwardId) (pass : ForwardRule → HostEnv)
  | removeDnat (key : String) (reads : DnatReads)
  | migrateDnat (key : String) (reads : DnatReads) (now : DateTime) (id : ForwardId)
  | listInterfaces (found : List InterfaceInfo)
  | listDevices
  | revokeDevice (id : DeviceId)
  | getSettings (dump : String → Option String)
  | setSshExposure (allowlistOnly : Bool) (now : DateTime) (dump : String → Option String)
  | setForwardExposure (allowlistOnly : Bool) (dump : String → Option String)
  | setSshPasswordAuth (enabled : Bool) (answers : Sshd.Answers) (dump : String → Option String)
  | resetRootPassword (password : String) (chpasswd : Sshd.Chpasswd)
  | egressIp (found : EgressIp)
  | listPublicPorts
  | addPublicPort (req : PublicPortRequest)
  | removePublicPort (proto : ForwardProto) (ports : PortRange)

/-- What a request gives back when it goes well. -/
inductive Payload where
  | null
  | allowlist (list : Allowlist)
  | entry (e : Entry)
  | ip (ip : IpAddr)
  | diff (d : Diff)
  | forwards (list : UnifiedForwardList)
  | forward (view : ForwardView)
  | interfaces (list : List InterfaceInfo)
  | devices (list : List Device)
  | settings (s : AgentSettings) (auth : Sshd.SshAuth)
  | egress (found : EgressIp)
  | publicPorts (list : List PublicPort)

/-- A message of a client: a request, or what is none. -/
inductive Message where
  | request (r : RpcRequest)
  | garbled (error : String)

section Handlers

variable {α β : Type} (B : NftBackend α) (N : NatBackend β) (cfg : AgentConfig)
variable (encodeKey : String → String) (decodeKey : String → Option String)

abbrev host : Host (Machine (α × β)) := machine (onFirst B)

abbrev nat : NatBackend (Machine (α × β)) := machineNat (onSecond N)

def onSite {γ : Type} (m : Act (Site (Machine (α × β))) ApiError γ) : Act (Agent α β) ApiError γ :=
  .zoom Agent.site (fun site s => { s with site := site }) m

def onWorld {γ : Type} (m : Act (World (Machine (α × β))) ApiError γ) : Act (Agent α β) ApiError γ :=
  onSite (Site.onWorld m)

def world (s : Agent α β) : World (Machine (α × β)) := s.site.world

/-- The list of the kernel first, and then the store as it is by then. -/
def sync (order : HashOrder) (now : DateTime) : Act (World (Machine (α × β))) ApiError Diff := do
  let kernel ← .mapErr nftFailure (callList (host B))
  let w ← .get
  return diff order w.store.entries kernel now

def setSshPasswordAuth (enabled : Bool) (answers : Sshd.Answers) : Act (Agent α β) ApiError AgentSettings := do
  let s ← .get
  let switched := Sshd.setPasswordAuth answers enabled s.sshd
  .modify fun s => { s with sshd := switched.files }
  .lift (switched.result.mapError internal)
  let s ← .get
  return buildSettings cfg (world s)

def egressMisplaced : ApiError := internal "EgressIp 须经连接循环处理"

/-- The answer to a request of a device that comes from the address. -/
def dispatch (device : DeviceId) (peerIp : IpAddr) (req : RpcRequest) : Act (Agent α β) ApiError Payload :=
  match req with
  | .listAllowlist => do
    let s ← .get
    return .allowlist ⟨(world s).store.entries, (world s).store.revision⟩
  | .allow r now id => do
    let entry ← onWorld (allow (host B) device r now id)
    return .entry entry
  | .revoke r => do
    onWorld (revoke (host B) r)
    return .null
  | .whoami => return .ip peerIp
  | .sync order now => do
    let d ← onWorld (sync B order now)
    return .diff d
  | .listForwards reads => do
    let s ← .get
    return .forwards (listForwards encodeKey s.site.dnat reads (world s).store)
  | .addForward r reads now id => do
    let s ← .get
    let view ← onWorld (addForward (host B) (nat N) s.site.dnat reads device r now id)
    return .forward view
  | .updateForward id rule reads => do
    let s ← .get
    let view ← onWorld (updateForward (host B) (nat N) s.site.dnat reads id rule)
    return .forward view
  | .removeForward id pass => do
    onWorld (removeForward (host B) (nat N) pass id)
    return .null
  | .removeDnat key reads => do
    onSite (removeDnatForward decodeKey reads key)
    return .null
  | .migrateDnat key reads now id => do
    let view ← onSite (migrateDnatForward (host B) (nat N) decodeKey reads device key now id)
    return .forward view
  | .listInterfaces found => return .interfaces found
  | .listDevices => do
    let s ← .get
    return .devices (world s).store.devices
  | .revokeDevice id => do
    onWorld (revokeDevice (host B) id)
    return .null
  | .getSettings dump => do
    let s ← .get
    return .settings (buildSettings cfg (world s)) (Sshd.probe dump)
  | .setSshExposure on now dump => do
    let settings ← onWorld (setSshExposure (host B) cfg on now)
    return .settings settings (Sshd.probe dump)
  | .setForwardExposure on dump => do
    let settings ← onWorld (setForwardExposure (host B) cfg on)
    return .settings settings (Sshd.probe dump)
  | .setSshPasswordAuth enabled answers dump => do
    let settings ← setSshPasswordAuth cfg enabled answers
    return .settings settings (Sshd.probe dump)
  | .resetRootPassword password chpasswd => do
    .zoom Agent.chpasswd (fun written s => { s with chpasswd := written }) (Ipgate.resetRootPassword chpasswd password)
    return .null
  -- This needs the network, and is answered before it comes here.
  | .egressIp _ => .fail egressMisplaced
  | .listPublicPorts => do
    let s ← .get
    return .publicPorts (listPublicPorts cfg (world s))
  | .addPublicPort r => do
    let ports ← onWorld (addPublicPort (host B) cfg r)
    return .publicPorts ports
  | .removePublicPort proto ports => do
    let ports ← onWorld (removePublicPort (host B) cfg proto ports)
    return .publicPorts ports

def badRequest (e : String) : ApiError := ⟨.badRequest, "请求解析失败：" ++ e⟩

/-- The answer to a message of a device that comes from the address. -/
def respond (device : DeviceId) (peerIp : IpAddr) (m : Message) : Act (Agent α β) ApiError Payload :=
  match m with
  | .garbled e => .fail (badRequest e)
  | .request (.egressIp found) => return .egress found
  | .request r => dispatch B N cfg encodeKey decodeKey device peerIp r

/-- The agent after messages, each of a device and from an address. -/
def serve (s : Agent α β) (messages : List (DeviceId × IpAddr × Message)) : Agent α β :=
  messages.foldl (fun s m => (respond B N cfg encodeKey decodeKey m.1 m.2.1 m.2.2 s).2) s

end Handlers

/-! ## Parts -/

/-- The parts of the agent and its host that requests can change. -/
inductive Part where
  | allowlist
  | forwards
  | devices
  | settings
  /-- The ruleset that the kernel has accepted last, and what is reported of it. -/
  | ruleset
  | inputTable
  | natTable
  | stateFile
  | dnat
  | sshd
  | rootPassword
  deriving DecidableEq

namespace Part

abbrev Content (α β : Type) : Part → Type
  | allowlist => List Entry × ℕ
  | forwards => List ForwardRule × ℕ × (ForwardId → Option (BitVec 32))
  | devices => List Device
  | settings => RulesetFlags
  | ruleset => RulesetConfig × Live
  | inputTable => α
  | natTable => β
  | stateFile => Disk
  | dnat => DnatAdapter
  | sshd => Sshd.Files
  | rootPassword => List UInt8

def content {α β : Type} (s : Agent α β) : (x : Part) → x.Content α β
  | allowlist => (s.site.world.store.entries, s.site.world.store.revision)
  | forwards => (s.site.world.store.forwards, s.site.world.store.forwardRevision, s.site.world.store.resolved)
  | devices => s.site.world.store.devices
  | settings => s.site.world.store.rulesetFlags
  | ruleset => (s.site.world.accepted, s.site.world.live)
  | inputTable => s.site.world.host.kernel.1
  | natTable => s.site.world.host.kernel.2
  | stateFile => s.site.world.host.disk
  | dnat => s.site.dnat
  | sshd => s.sshd
  | rootPassword => s.chpasswd

end Part

open Dispatch.Part

/-- What a request can change: the part of the store that it is about and the state file, and the
table that renders it. What only reads changes nothing; a list of the kernel's set goes to the kernel. -/
def RpcRequest.reach : RpcRequest → List Part
  | .allow _ _ _ | .revoke _ => [.allowlist, .stateFile, .inputTable]
  | .sync _ _ => [.inputTable]
  | .addForward _ _ _ _ | .updateForward _ _ _ | .removeForward _ _ => [.forwards, .stateFile, .natTable]
  | .removeDnat _ _ => [.dnat]
  | .migrateDnat _ _ _ _ => [.forwards, .stateFile, .natTable, .dnat]
  | .revokeDevice _ => [.devices, .stateFile]
  | .setSshExposure _ _ _ | .setForwardExposure _ _ | .addPublicPort _ | .removePublicPort _ _ =>
    [.settings, .stateFile, .ruleset, .inputTable]
  | .setSshPasswordAuth _ _ _ => [.sshd]
  | .resetRootPassword _ _ => [.rootPassword]
  | .listAllowlist | .whoami | .listForwards _ | .listInterfaces _ | .listDevices | .getSettings _ | .egressIp _
  | .listPublicPorts => []

def Message.reach : Message → List Part
  | .request r => r.reach
  | .garbled _ => []

/-! ## What the calls of a handler leave alone -/

section Calls

variable {α β : Type} {B : NftBackend α} {N : NatBackend β} {x : Part} {s : Agent α β}

/-- A part as it is with another world. -/
def Part.inWorld (x : Part) (s : Agent α β) (w : World (Machine (α × β))) : x.Content α β :=
  x.content { s with site := { s.site with world := w } }

theorem keeps_callSave (hx : x ≠ .stateFile) : Keeps (x.inWorld s) (callSave (host (β := β) B)) := by
  intro w
  cases x with
  | stateFile => exact (hx rfl).elim
  | _ => rfl

theorem keeps_callAdd (hx : x ≠ .inputTable) {entry : Entry} : Keeps (x.inWorld s) (callAdd (host (β := β) B) entry) := by
  intro w
  cases x with
  | inputTable => exact (hx rfl).elim
  | _ => rfl

theorem keeps_callRemove (hx : x ≠ .inputTable) {target : IpNet} :
    Keeps (x.inWorld s) (callRemove (host (β := β) B) target) := by
  intro w
  cases x with
  | inputTable => exact (hx rfl).elim
  | _ => rfl

theorem keeps_callList (hx : x ≠ .inputTable) : Keeps (x.inWorld s) (callList (host (β := β) B)) := by
  intro w
  cases x with
  | inputTable => exact (hx rfl).elim
  | _ => rfl

theorem callApply_state (c : RulesetConfig) (entries : List Entry) (w : World (Machine (α × β))) :
    ∃ accepted, (callApply (host B) c entries w).2 = { w with
      host := { w.host with kernel := ((B.apply c entries w.host.kernel.1).2, w.host.kernel.2) }, accepted } := by
  unfold callApply
  split
  · next k h =>
    obtain rfl := congrArg Prod.snd h
    exact ⟨c, rfl⟩
  · next e k h =>
    obtain rfl := congrArg Prod.snd h
    exact ⟨w.accepted, rfl⟩

theorem keeps_callApply (hx : x ≠ .inputTable) (hrules : x ≠ .ruleset) {c : RulesetConfig} {entries : List Entry} :
    Keeps (x.inWorld s) (callApply (host (β := β) B) c entries) := by
  intro w
  obtain ⟨accepted, hstate⟩ := callApply_state (B := B) c entries w
  rw [hstate]
  cases x with
  | inputTable => exact (hx rfl).elim
  | ruleset => exact (hrules rfl).elim
  | _ => rfl

theorem keeps_installNat (hx : x ≠ .natTable) {resolved : List ResolvedForward} :
    Keeps (x.inWorld s) (installNat (nat (α := α) N) resolved) := by
  intro w
  unfold installNat
  dsimp only
  split <;>
  cases x with
  | natTable => exact (hx rfl).elim
  | _ => rfl

/-- The operation on the store changes the part alone. -/
def OnlyChanges {γ : Type} (y : Part) (f : State → γ × State) : Prop :=
  ∀ x : Part, x ≠ y → ∀ (s : Agent α β) (w : World (Machine (α × β))),
    x.inWorld s { w with store := (f w.store).2 } = x.inWorld s w

theorem keeps_onStore {ε γ : Type} {f : State → γ × State} {y : Part} (h : OnlyChanges (α := α) (β := β) y f)
    (hx : x ≠ y) : Keeps (x.inWorld s) (onStore f : Act (World (Machine (α × β))) ε γ) := fun w => h x hx s w

end Calls

/-! ## The operations of the store -/

section Store

variable {α β : Type} {now : DateTime}

theorem allow_only (req : AllowRequest) (who : DeviceId) (id : EntryId) :
    OnlyChanges (α := α) (β := β) .allowlist fun s => s.allow req who now id := by
  intro x hx s w
  cases x with
  | allowlist => exact (hx rfl).elim
  | _ => rfl

theorem revokeByTarget_only (target : IpNet) :
    OnlyChanges (α := α) (β := β) .allowlist fun s => s.revokeByTarget target := by
  intro x hx s w
  unfold State.revokeByTarget
  dsimp only
  split <;>
  cases x with
  | allowlist => exact (hx rfl).elim
  | _ => rfl

theorem addForward_only (req : AddForwardRequest) (who : DeviceId) (id : ForwardId) :
    OnlyChanges (α := α) (β := β) .forwards fun s => s.addForward req who now id := by
  intro x hx s w
  cases x with
  | forwards => exact (hx rfl).elim
  | _ => rfl

theorem changeForward_only (id : ForwardId) (req : AddForwardRequest) :
    OnlyChanges (α := α) (β := β) .forwards (changeForward id req) := by
  intro x hx s w
  cases hfind : w.store.findForward id with
  | none =>
    unfold changeForward State.updateForward
    rw [hfind]
  | some old =>
    rw [changeForward_some hfind]
    cases x with
    | forwards => exact (hx rfl).elim
    | _ => rfl

theorem removeForward_only (id : ForwardId) : OnlyChanges (α := α) (β := β) .forwards fun s => s.removeForward id := by
  intro x hx s w
  unfold State.removeForward
  dsimp only
  split <;>
  cases x with
  | forwards => exact (hx rfl).elim
  | _ => rfl

theorem setResolved_only (map : ForwardId → Option (BitVec 32)) :
    OnlyChanges (α := α) (β := β) .forwards fun s => ((), s.setResolved map) := by
  intro x hx s w
  cases x with
  | forwards => exact (hx rfl).elim
  | _ => rfl

theorem removeDevice_only (id : DeviceId) : OnlyChanges (α := α) (β := β) .devices fun s => s.removeDevice id := by
  intro x hx s w
  cases x with
  | devices => exact (hx rfl).elim
  | _ => rfl

/-- A change of the flags alone. -/
theorem flags_only {f : State → State} (h : ∀ s, ∃ ssh fwd ports, f s = { s with
      sshAllowlistOnly := ssh, forwardAllowlistOnly := fwd, publicPorts := ports }) :
    OnlyChanges (α := α) (β := β) .settings fun s => ((), f s) := by
  intro x hx s w
  obtain ⟨ssh, fwd, ports, hf⟩ := h w.store
  dsimp only
  rw [hf]
  cases x with
  | settings => exact (hx rfl).elim
  | _ => rfl

end Store

/-! ## The handlers -/

section Handlers

variable {α β : Type} {B : NftBackend α} {N : NatBackend β} {cfg : AgentConfig} {x : Part} {s : Agent α β}
variable {now : DateTime} {who : DeviceId}

/-- A part as it is with another site. -/
def Part.inSite (x : Part) (s : Agent α β) (site : Site (Machine (α × β))) : x.Content α β :=
  x.content { s with site := site }

theorem keeps_saveStore (hfile : x ≠ .stateFile) : Keeps (x.inWorld s) (saveStore (host (β := β) B)) :=
  keeps_mapErr (keeps_callSave hfile)

theorem keeps_rejectIf {c : Bool} {e : ApiError} :
    Keeps (x.inWorld s) (rejectIf c e : Act (World (Machine (α × β))) ApiError Unit) := keeps_onlyIf keeps_fail

theorem keeps_allow (hpart : x ≠ .allowlist) (hfile : x ≠ .stateFile) (htable : x ≠ .inputTable) {req : AllowRequest}
    {id : EntryId} : Keeps (x.inWorld s) (allow (host (β := β) B) who req now id) :=
  keeps_bind (keeps_onStore (allow_only req who id) hpart) fun _ =>
    keeps_bind (keeps_saveStore hfile) fun _ => keeps_bind (keeps_mapErr (keeps_callAdd htable)) fun _ => keeps_pure

theorem keeps_revoke (hpart : x ≠ .allowlist) (hfile : x ≠ .stateFile) (htable : x ≠ .inputTable) {req : RevokeRequest} :
    Keeps (x.inWorld s) (revoke (host (β := β) B) req) := by
  refine keeps_bind keeps_get fun w => ?_
  split
  · exact keeps_fail
  · next target _ =>
    exact keeps_bind (keeps_onStore (revokeByTarget_only target) hpart) fun _ =>
      keeps_bind keeps_rejectIf fun _ => keeps_bind (keeps_saveStore hfile) fun _ =>
        keeps_mapErr (keeps_callRemove htable)

theorem keeps_sync (htable : x ≠ .inputTable) {order : HashOrder} : Keeps (x.inWorld s) (sync (β := β) B order now) :=
  keeps_bind (keeps_mapErr (keeps_callList htable)) fun _ => keeps_bind keeps_get fun _ => keeps_pure

theorem keeps_reapplyRuleset (hrules : x ≠ .ruleset) (htable : x ≠ .inputTable) {flags : RulesetFlags}
    {entries : List Entry} : Keeps (x.inWorld s) (reapplyRuleset (host (β := β) B) cfg flags entries) := by
  refine keeps_bind (keeps_mapErr (keeps_applyRuleset fun c => keeps_callApply htable hrules)) fun applied => ?_
  refine keeps_bind (fun w => ?_) fun _ => keeps_pure
  cases x with
  | ruleset => exact (hrules rfl).elim
  | _ => rfl

theorem keeps_commit (hpart : x ≠ .settings) (hfile : x ≠ .stateFile) {f : State → State}
    (h : ∀ s, ∃ ssh fwd ports, f s = { s with
      sshAllowlistOnly := ssh, forwardAllowlistOnly := fwd, publicPorts := ports }) :
    Keeps (x.inWorld s) (commit (host (β := β) B) cfg f) :=
  keeps_bind (keeps_onStore (flags_only h) hpart) fun _ =>
    keeps_bind (keeps_saveStore hfile) fun _ => keeps_bind keeps_get fun _ => keeps_pure

theorem keeps_setSshExposure (hpart : x ≠ .settings) (hfile : x ≠ .stateFile) (hrules : x ≠ .ruleset)
    (htable : x ≠ .inputTable) {on : Bool} : Keeps (x.inWorld s) (setSshExposure (host (β := β) B) cfg on now) := by
  refine keeps_bind keeps_get fun w => keeps_bind keeps_rejectIf fun _ => ?_
  dsimp only
  generalize (if on then cfg.publicPortCoveringSsh (w.store.rulesetFlags.withSsh on) else none) = covering
  cases covering with
  | some p => exact keeps_fail
  | none =>
    refine keeps_bind (keeps_reapplyRuleset hrules htable) fun applied => ?_
    split
    · exact keeps_bind (keeps_reapplyRuleset hrules htable) fun _ => keeps_fail
    · exact keeps_commit hpart hfile fun s => ⟨on, s.forwardAllowlistOnly, s.publicPorts, rfl⟩

theorem keeps_setForwardExposure (hpart : x ≠ .settings) (hfile : x ≠ .stateFile) (hrules : x ≠ .ruleset)
    (htable : x ≠ .inputTable) {on : Bool} : Keeps (x.inWorld s) (setForwardExposure (host (β := β) B) cfg on) := by
  refine keeps_bind keeps_get fun w => keeps_bind (keeps_reapplyRuleset hrules htable) fun applied => ?_
  split
  · exact keeps_fail
  · exact keeps_commit hpart hfile fun s => ⟨s.sshAllowlistOnly, on, s.publicPorts, rfl⟩

theorem keeps_commitPorts (hpart : x ≠ .settings) (hfile : x ≠ .stateFile) {ports : List PublicPort} :
    Keeps (x.inWorld s) (commitPorts (host (β := β) B) cfg ports) :=
  keeps_bind (keeps_onStore (flags_only fun s => ⟨s.sshAllowlistOnly, s.forwardAllowlistOnly, ports, rfl⟩) hpart)
    fun _ => keeps_bind (keeps_saveStore hfile) fun _ => keeps_bind keeps_get fun _ => keeps_pure

theorem keeps_addPublicPort (hpart : x ≠ .settings) (hfile : x ≠ .stateFile) (hrules : x ≠ .ruleset)
    (htable : x ≠ .inputTable) {req : PublicPortRequest} :
    Keeps (x.inWorld s) (addPublicPort (host (β := β) B) cfg req) := by
  refine keeps_bind keeps_rejectIf fun _ => keeps_bind keeps_get fun w => ?_
  dsimp only
  split
  · exact keeps_commitPorts hpart hfile
  · exact keeps_bind keeps_rejectIf fun _ =>
      keeps_bind (keeps_reapplyRuleset hrules htable) fun _ => keeps_commitPorts hpart hfile

theorem keeps_removePublicPort (hpart : x ≠ .settings) (hfile : x ≠ .stateFile) (hrules : x ≠ .ruleset)
    (htable : x ≠ .inputTable) {proto : ForwardProto} {ports : PortRange} :
    Keeps (x.inWorld s) (removePublicPort (host (β := β) B) cfg proto ports) :=
  keeps_bind keeps_get fun _ => keeps_bind keeps_rejectIf fun _ =>
    keeps_bind (keeps_reapplyRuleset hrules htable) fun _ => keeps_commitPorts hpart hfile

theorem keeps_revokeDevice (hpart : x ≠ .devices) (hfile : x ≠ .stateFile) {id : DeviceId} :
    Keeps (x.inWorld s) (revokeDevice (host (β := β) B) id) :=
  keeps_bind (keeps_onStore (removeDevice_only id) hpart) fun _ =>
    keeps_bind keeps_rejectIf fun _ => keeps_saveStore hfile

theorem keeps_applyNow (hpart : x ≠ .forwards) (hfile : x ≠ .stateFile) (htable : x ≠ .natTable)
    {pass : ForwardRule → HostEnv} : Keeps (x.inWorld s) (applyNow (host B) (nat N) pass) :=
  keeps_bind keeps_get fun _ => keeps_bind (keeps_bind (keeps_installNat htable) fun _ =>
    keeps_bind (keeps_onStore (setResolved_only _) hpart) fun _ => keeps_ignore (keeps_callSave hfile)) fun _ => keeps_pure

theorem keeps_applyForwards (hpart : x ≠ .forwards) (hfile : x ≠ .stateFile) (htable : x ≠ .natTable)
    {pass : ForwardRule → HostEnv} : Keeps (x.inWorld s) (applyForwards (host B) (nat N) pass) :=
  keeps_bind (keeps_mapErr (keeps_applyNow hpart hfile htable)) fun _ => keeps_pure

theorem keeps_viewForward {rule : ForwardRule} :
    Keeps (x.inWorld s) (viewForward rule : Act (World (Machine (α × β))) ApiError ForwardView) :=
  keeps_bind keeps_get fun _ => keeps_pure

theorem keeps_addForward (hpart : x ≠ .forwards) (hfile : x ≠ .stateFile) (htable : x ≠ .natTable) {a : DnatAdapter}
    {reads : ForwardReads} {req : AddForwardRequest} {id : ForwardId} :
    Keeps (x.inWorld s) (addForward (host B) (nat N) a reads who req now id) :=
  keeps_bind keeps_lift fun _ => keeps_bind (keeps_onStore (addForward_only req who id) hpart) fun _ =>
    keeps_bind (keeps_saveStore hfile) fun _ =>
      keeps_bind (keeps_applyForwards hpart hfile htable) fun _ => keeps_viewForward

theorem keeps_updateForward (hpart : x ≠ .forwards) (hfile : x ≠ .stateFile) (htable : x ≠ .natTable) {a : DnatAdapter}
    {reads : ForwardReads} {req : AddForwardRequest} {id : ForwardId} :
    Keeps (x.inWorld s) (updateForward (host B) (nat N) a reads id req) := by
  refine keeps_bind keeps_lift fun _ => keeps_bind keeps_get fun w => keeps_bind keeps_rejectIf fun _ =>
    keeps_bind (keeps_onStore (changeForward_only id req) hpart) fun changed => ?_
  cases changed with
  | none => exact keeps_fail
  | some rule =>
    exact keeps_bind (keeps_saveStore hfile) fun _ =>
      keeps_bind (keeps_applyForwards hpart hfile htable) fun _ => keeps_viewForward

theorem keeps_removeForward (hpart : x ≠ .forwards) (hfile : x ≠ .stateFile) (htable : x ≠ .natTable)
    {pass : ForwardRule → HostEnv} {id : ForwardId} :
    Keeps (x.inWorld s) (removeForward (host B) (nat N) pass id) :=
  keeps_bind (keeps_onStore (removeForward_only id) hpart) fun _ => keeps_bind keeps_rejectIf fun _ =>
    keeps_bind (keeps_saveStore hfile) fun _ => keeps_applyForwards hpart hfile htable

/-! ## The requests about dnat -/

theorem keeps_siteWorld {ε γ : Type} {m : Act (World (Machine (α × β))) ε γ} (h : ∀ s : Agent α β, Keeps (x.inWorld s) m) :
    Keeps (x.inSite s) (Site.onWorld m) :=
  keeps_zoom (fun site => h { s with site := site }) fun _ => rfl

theorem keeps_callRemovePrefix (hdnat : x ≠ .dnat) {answers : ConfAnswers} {key : String} :
    Keeps (x.inSite s) (callRemovePrefix answers key) := by
  intro site
  cases x with
  | dnat => exact (hdnat rfl).elim
  | _ => rfl

variable {decodeKey : String → Option String} {reads : DnatReads} {key : String}

theorem keeps_removeDnatForward (hdnat : x ≠ .dnat) :
    Keeps (x.inSite s) (removeDnatForward decodeKey reads key : Act (Site (Machine (α × β))) ApiError Unit) :=
  keeps_bind keeps_get fun _ => keeps_bind keeps_lift fun _ =>
    keeps_bind (keeps_mapErr (keeps_callRemovePrefix hdnat)) fun _ => keeps_onlyIf keeps_fail

theorem keeps_undoMigration (hpart : x ≠ .forwards) (hfile : x ≠ .stateFile) (htable : x ≠ .natTable) {id : ForwardId} :
    Keeps (x.inSite s) (undoMigration (host B) (nat N) reads id) :=
  keeps_bind (keeps_siteWorld fun _ => keeps_onStore (removeForward_only id) hpart) fun _ =>
    keeps_bind (keeps_siteWorld fun _ => keeps_ignore (keeps_callSave hfile)) fun _ =>
      keeps_siteWorld fun _ => keeps_ignore (keeps_applyNow hpart hfile htable)

theorem keeps_migrateDnatForward (hpart : x ≠ .forwards) (hfile : x ≠ .stateFile) (htable : x ≠ .natTable)
    (hdnat : x ≠ .dnat) {id : ForwardId} :
    Keeps (x.inSite s) (migrateDnatForward (host B) (nat N) decodeKey reads who key now id) := by
  refine keeps_bind keeps_get fun site => keeps_bind keeps_lift fun found => ?_
  refine keeps_bind (keeps_siteWorld fun _ => keeps_onStore (addForward_only _ who id) hpart) fun rule =>
    keeps_bind (keeps_siteWorld fun _ => keeps_saveStore hfile) fun _ =>
      keeps_bind (keeps_siteWorld fun _ => keeps_applyForwards hpart hfile htable) fun _ =>
        keeps_bind keeps_get fun site => ?_
  split
  · exact keeps_bind (keeps_undoMigration hpart hfile htable) fun _ => keeps_fail
  · exact keeps_bind (keeps_mapErr (keeps_callRemovePrefix hdnat)) fun _ => keeps_siteWorld fun _ => keeps_viewForward

end Handlers

/-! ## Every request keeps to its reach -/

section Reach

variable {α β : Type} {B : NftBackend α} {N : NatBackend β} {cfg : AgentConfig} {x : Part}
variable {encodeKey : String → String} {decodeKey : String → Option String} {device : DeviceId} {peerIp : IpAddr}

theorem keeps_onSite {γ : Type} {m : Act (Site (Machine (α × β))) ApiError γ}
    (h : ∀ s : Agent α β, Keeps (x.inSite s) m) : Keeps (fun s : Agent α β => x.content s) (onSite m) :=
  keeps_zoom h fun _ => rfl

theorem keeps_onWorld {γ : Type} {m : Act (World (Machine (α × β))) ApiError γ}
    (h : ∀ s : Agent α β, Keeps (x.inWorld s) m) : Keeps (fun s : Agent α β => x.content s) (onWorld m) :=
  keeps_onSite fun _ => keeps_siteWorld h

theorem keeps_setSshPasswordAuth (hpart : x ≠ .sshd) {enabled : Bool} {answers : Sshd.Answers} :
    Keeps (fun s : Agent α β => x.content s) (setSshPasswordAuth cfg enabled answers) := by
  refine keeps_bind keeps_get fun s => keeps_bind (fun s => ?_) fun _ => keeps_bind keeps_lift fun _ =>
    keeps_bind keeps_get fun _ => keeps_pure
  cases x with
  | sshd => exact (hpart rfl).elim
  | _ => rfl

theorem keeps_resetRootPassword (hpart : x ≠ .rootPassword) {c : Sshd.Chpasswd} {password : String} :
    Keeps (fun s : Agent α β => x.content s) (.zoom Agent.chpasswd (fun written s => { s with chpasswd := written })
      (Ipgate.resetRootPassword c password)) := by
  refine keeps_zoom (fun s written => ?_) fun s => rfl
  cases x with
  | rootPassword => exact (hpart rfl).elim
  | _ => rfl

/-- However its calls end, a request changes nothing outside of its reach. -/
theorem keeps_dispatch {req : RpcRequest} (hx : x ∉ req.reach) :
    Keeps (fun s : Agent α β => x.content s) (dispatch B N cfg encodeKey decodeKey device peerIp req) := by
  cases req with
  | listAllowlist | listForwards | listDevices | getSettings | listPublicPorts =>
    exact keeps_bind keeps_get fun _ => keeps_pure
  | whoami | listInterfaces => exact keeps_pure
  | egressIp => exact keeps_fail
  | allow r now id =>
    simp only [RpcRequest.reach, List.mem_cons, List.not_mem_nil, or_false, not_or] at hx
    exact keeps_bind (keeps_onWorld fun _ => keeps_allow hx.1 hx.2.1 hx.2.2) fun _ => keeps_pure
  | revoke r =>
    simp only [RpcRequest.reach, List.mem_cons, List.not_mem_nil, or_false, not_or] at hx
    exact keeps_bind (keeps_onWorld fun _ => keeps_revoke hx.1 hx.2.1 hx.2.2) fun _ => keeps_pure
  | sync order now =>
    exact keeps_bind (keeps_onWorld fun _ => keeps_sync fun h => hx (List.mem_singleton.mpr h)) fun _ => keeps_pure
  | addForward r reads now id =>
    simp only [RpcRequest.reach, List.mem_cons, List.not_mem_nil, or_false, not_or] at hx
    exact keeps_bind keeps_get fun _ =>
      keeps_bind (keeps_onWorld fun _ => keeps_addForward hx.1 hx.2.1 hx.2.2) fun _ => keeps_pure
  | updateForward id rule reads =>
    simp only [RpcRequest.reach, List.mem_cons, List.not_mem_nil, or_false, not_or] at hx
    exact keeps_bind keeps_get fun _ =>
      keeps_bind (keeps_onWorld fun _ => keeps_updateForward hx.1 hx.2.1 hx.2.2) fun _ => keeps_pure
  | removeForward id pass =>
    simp only [RpcRequest.reach, List.mem_cons, List.not_mem_nil, or_false, not_or] at hx
    exact keeps_bind (keeps_onWorld fun _ => keeps_removeForward hx.1 hx.2.1 hx.2.2) fun _ => keeps_pure
  | removeDnat key reads =>
    exact keeps_bind (keeps_onSite fun _ => keeps_removeDnatForward fun h => hx (List.mem_singleton.mpr h))
      fun _ => keeps_pure
  | migrateDnat key reads now id =>
    simp only [RpcRequest.reach, List.mem_cons, List.not_mem_nil, or_false, not_or] at hx
    exact keeps_bind (keeps_onSite fun _ => keeps_migrateDnatForward hx.1 hx.2.1 hx.2.2.1 hx.2.2.2) fun _ => keeps_pure
  | revokeDevice id =>
    simp only [RpcRequest.reach, List.mem_cons, List.not_mem_nil, or_false, not_or] at hx
    exact keeps_bind (keeps_onWorld fun _ => keeps_revokeDevice hx.1 hx.2) fun _ => keeps_pure
  | setSshExposure on now dump =>
    simp only [RpcRequest.reach, List.mem_cons, List.not_mem_nil, or_false, not_or] at hx
    exact keeps_bind (keeps_onWorld fun _ => keeps_setSshExposure hx.1 hx.2.1 hx.2.2.1 hx.2.2.2) fun _ => keeps_pure
  | setForwardExposure on dump =>
    simp only [RpcRequest.reach, List.mem_cons, List.not_mem_nil, or_false, not_or] at hx
    exact keeps_bind (keeps_onWorld fun _ => keeps_setForwardExposure hx.1 hx.2.1 hx.2.2.1 hx.2.2.2) fun _ => keeps_pure
  | addPublicPort r =>
    simp only [RpcRequest.reach, List.mem_cons, List.not_mem_nil, or_false, not_or] at hx
    exact keeps_bind (keeps_onWorld fun _ => keeps_addPublicPort hx.1 hx.2.1 hx.2.2.1 hx.2.2.2) fun _ => keeps_pure
  | removePublicPort proto ports =>
    simp only [RpcRequest.reach, List.mem_cons, List.not_mem_nil, or_false, not_or] at hx
    exact keeps_bind (keeps_onWorld fun _ => keeps_removePublicPort hx.1 hx.2.1 hx.2.2.1 hx.2.2.2) fun _ => keeps_pure
  | setSshPasswordAuth enabled answers dump =>
    exact keeps_bind (keeps_setSshPasswordAuth fun h => hx (List.mem_singleton.mpr h)) fun _ => keeps_pure
  | resetRootPassword password chpasswd =>
    exact keeps_bind (keeps_resetRootPassword fun h => hx (List.mem_singleton.mpr h)) fun _ => keeps_pure

theorem keeps_respond {m : Message} (hx : x ∉ m.reach) :
    Keeps (fun s : Agent α β => x.content s) (respond B N cfg encodeKey decodeKey device peerIp m) := by
  cases m with
  | garbled e => exact keeps_fail
  | request r =>
    cases r with
    | egressIp => exact keeps_pure
    | _ => exact keeps_dispatch hx

/-- Whatever devices send, in whatever order and however the calls end: a part of the agent or its
host is as it was unless a message that has it in its reach was among them. -/
theorem serve_keeps_to_reach (B : NftBackend α) (N : NatBackend β) (cfg : AgentConfig) (encodeKey : String → String)
    (decodeKey : String → Option String) (s : Agent α β) (messages : List (DeviceId × IpAddr × Message)) (x : Part)
    (hx : ∀ m ∈ messages, x ∉ m.2.2.reach) :
    x.content (serve B N cfg encodeKey decodeKey s messages) = x.content s := by
  induction messages generalizing s with
  | nil => rfl
  | cons m messages ih =>
    have hfirst : x.content (respond B N cfg encodeKey decodeKey m.1 m.2.1 m.2.2 s).2 = x.content s :=
      keeps_respond (hx m (List.mem_cons_self ..)) s
    exact (ih _ fun m' hm' => hx m' (List.mem_cons_of_mem m hm')).trans hfirst

/-- An agent that has nothing to do, on a host without dnat. -/
def idleAgent : Agent Unit Unit where
  site :=
    { world := ⟨State.default, ⟨false, false⟩, ⟨((), ()), ⟨State.default, []⟩⟩,
        AgentConfig.default.rulesetWith State.default.rulesetFlags⟩
      dnat := ⟨false, "", []⟩ }
  sshd := ⟨"", none⟩
  chpasswd := []

/-- A kernel that takes everything. -/
def idleNft : NftBackend Unit where
  apply _ _ k := (.ok (), k)
  add _ k := (.ok (), k)
  remove _ k := (.ok (), k)
  list k := (.ok [], k)

def idleNat : NatBackend Unit := ⟨fun _ k => (.ok (), k), fun k => (.ok (), k)⟩

/-- An agent with a forward and two devices. -/
def forwardingAgent : Agent Unit Unit :=
  { idleAgent with site := { idleAgent.site with world := { idleAgent.site.world with store := { State.default with
      forwards := [⟨⟨3⟩, .tcp, none, .single 8080, "192.0.2.80", .single 80, .auto, "", 0, ⟨1⟩⟩]
      devices := [⟨⟨1⟩, "laptop", "k1", 0, none⟩, ⟨⟨2⟩, "phone", "k2", 0, none⟩] } } } }

/-- Requests of both devices for the allowlist, the public ports, the flags and the devices. -/
def otherRequests : List (DeviceId × IpAddr × Message) :=
  [(⟨1⟩, .v4 0x7f000001, .request (.allow ⟨.host (.v4 (ipv4 203 0 113 7)), "", none⟩ 0 ⟨5⟩)),
    (⟨2⟩, .v4 0x7f000001, .request (.addPublicPort ⟨.udp, .single 5000, ""⟩)),
    (⟨2⟩, .v4 0x7f000001, .garbled "?"),
    (⟨1⟩, .v4 0x7f000001, .request (.setSshExposure true 0 fun _ => none)),
    (⟨1⟩, .v4 0x7f000001, .request (.revokeDevice ⟨2⟩))]

/-- The requests change much, but not the forwards. -/
theorem serve_others_forwards : ∃ s,
    serve idleNft idleNat AgentConfig.default id some forwardingAgent otherRequests = s ∧
      Part.forwards.content s = Part.forwards.content forwardingAgent ∧
      s.site.world.store.entries.map Entry.id = [⟨5⟩] ∧ s.site.world.store.publicPorts.length = 1 ∧
      s.site.world.store.sshAllowlistOnly = true ∧ s.site.world.store.devices.map Device.id = [⟨1⟩] := by
  have hforwards := serve_keeps_to_reach idleNft idleNat AgentConfig.default id some forwardingAgent otherRequests
    .forwards (by decide)
  exact ⟨_, rfl, hforwards, by decide +kernel⟩

/-! ## Devices -/

theorem preserves_revokeDevice {ds : List Device} {id : DeviceId} :
    Preserves (fun w => w.store.devices.Sublist ds) (revokeDevice (host (β := β) B) id) := by
  refine preserves_bind (fun w hw => List.filter_sublist.trans hw) fun removed => ?_
  have hrest : Keeps (fun w : World (Machine (α × β)) => w.store.devices)
      (rejectIf (!removed) deviceNotFound >>= fun _ => saveStore (host B)) :=
    keeps_bind (keeps_onlyIf keeps_fail) fun _ _ => rfl
  exact hrest.preserves fun w w' hsame hw => by rwa [hsame]

theorem preserves_respond {ds : List Device} {m : Message} :
    Preserves (fun s : Agent α β => s.site.world.store.devices.Sublist ds)
      (respond B N cfg encodeKey decodeKey device peerIp m) := by
  by_cases hreach : Part.devices ∈ m.reach
  · cases m with
    | garbled e => cases hreach
    | request r =>
      cases r with
      | revokeDevice id =>
        exact preserves_bind (fun s hs => preserves_revokeDevice (B := B) s.site.world hs) fun _ => preserves_pure
      | _ => simp [Message.reach, RpcRequest.reach] at hreach
  · exact (keeps_respond hreach).preserves fun s s' hsame hs => by
      have hdevices : s'.site.world.store.devices = s.site.world.store.devices := hsame
      rwa [hdevices]

/-- No request authorises a device, or changes one: whatever devices send, those that are left are
devices that were there, as they were and in the order they had. -/
theorem serve_devices_sublist (B : NftBackend α) (N : NatBackend β) (cfg : AgentConfig) (encodeKey : String → String)
    (decodeKey : String → Option String) (s : Agent α β) (messages : List (DeviceId × IpAddr × Message)) :
    (serve B N cfg encodeKey decodeKey s messages).site.world.store.devices.Sublist s.site.world.store.devices := by
  induction messages generalizing s with
  | nil => exact List.Sublist.refl _
  | cons m messages ih =>
    exact (ih _).trans (preserves_respond s (List.Sublist.refl _))

end Reach

end Ipgate.Dispatch
