-- SUMMARY: main.rs: sessions at the console, held against the same requests to a service that is running.
import Ipgate.Agent.Cli.Console

/-!
# Sessions at the console

A session is made of commands, each of which goes by the state file. The requests for the same things
go to one service, which goes by its memory. As long as the memory is what the file says, a command
leaves the host like the request; `session_as_remote` is for whole sessions. A disk that takes every
save keeps the memory so.
-/

namespace Ipgate.Cli

open Net Act Dispatch

/-! ## A session -/

/-- A command with its arguments, and what it learns of the clock, of fresh ids and of the host. -/
inductive Command where
  | allow (target note : String) (ttlSecs : Option UInt64) (now : DateTime) (id : EntryId)
  | revoke (target : String)
  | forwardAdd (args : ForwardArgs) (conf : Except String Unit) (defaultIface : Option String)
    (env : ForwardRule → HostEnv) (now : DateTime) (id : ForwardId)
  | forwardRm (id : String) (env : ForwardRule → HostEnv)
  | dnatRm (listen iface : String) (reads : DnatReads)
  | dnatMigrate (listen iface : String) (reads : DnatReads) (now : DateTime) (id : ForwardId)
  | sshExpose (openAll allowlist : Bool) (now : DateTime)
  | forwardExpose (openAll allowlist : Bool)

/-- The libraries that arguments are read with. -/
structure Readers where
  net : String → Option IpNet
  uuid : String → Option ForwardId
  /-- The times that there are. -/
  inRange : DateTime → Bool
  base64 : Dnat.Base64Engine

section Session

variable {α β : Type} (B : NftBackend α) (N : NatBackend β) (cfg : AgentConfig) (R : Readers)

def onSite {γ : Type} (m : Act (Site (Machine (α × β))) String γ) : Act (Agent α β) String Unit :=
  .discard (.zoom Agent.site (fun site s => { s with site := site }) m)

/-- Run a command. -/
def console : Command → Act (Agent α β) String Unit
  | .allow target note ttlSecs now id =>
    onSite (Site.onWorld (allowCli (onFirst B) R.net R.inRange target note ttlSecs now id))
  | .revoke target => onSite (Site.onWorld (revokeCli (onFirst B) R.net target))
  | .forwardAdd args conf defaultIface env now id => do
    let s ← .get
    onSite (Site.onWorld (forwardAddCli (onFirst B) (nat N) s.site.dnat conf defaultIface env args now id))
  | .forwardRm id env => onSite (Site.onWorld (forwardRmCli (onFirst B) (nat N) R.uuid env id))
  | .dnatRm listen iface reads => onSite (dnatRmCli reads listen iface)
  | .dnatMigrate listen iface reads now id => onSite (dnatMigrateCli (onFirst B) (nat N) reads listen iface now id)
  | .sshExpose openAll allowlist _ => onSite (Site.onWorld (sshExposeCli (onFirst B) cfg openAll allowlist))
  | .forwardExpose openAll allowlist => onSite (Site.onWorld (forwardExposeCli (onFirst B) cfg openAll allowlist))

/-- The remote request for what a command is to do, where its arguments can be read. -/
def Command.request (R : Readers) : Command → Option RpcRequest
  | .allow target note ttlSecs now id => do
    let net ← R.net target
    let expiresAt ← (expiry R.inRange now ttlSecs).toOption
    return .allow ⟨net, note, expiresAt⟩ now id
  | .revoke target => (R.net target).map fun net => .revoke (.target net)
  | .forwardAdd args conf defaultIface env now id =>
    (requestOf args).toOption.map fun req => .addForward req ⟨defaultIface, conf, defaultIface, env⟩ now id
  | .forwardRm id env => (R.uuid (Text.trim id)).map fun id => .removeForward id env
  | .dnatRm listen iface reads =>
    (parsePortRange listen.toList).toOption.map fun listen =>
      .removeDnat (Dnat.encodeKey R.base64 (keyOf listen iface)) reads
  | .dnatMigrate listen iface reads now id =>
    (parsePortRange listen.toList).toOption.map fun listen =>
      .migrateDnat (Dnat.encodeKey R.base64 (keyOf listen iface)) reads now id
  | .sshExpose openAll allowlist now =>
    (exposeMode openAll allowlist).toOption.map fun on => .setSshExposure on now fun _ => none
  | .forwardExpose openAll allowlist =>
    (forwardMode openAll allowlist).toOption.map fun on => .setForwardExposure on fun _ => none

/-- The agent without its process: the tables of the kernel and the files, and in memory what the next process
reads from the state file. -/
def offline (s : Agent α β) : Agent α β :=
  { s with site := { s.site with world :=
    { s.site.world with store := s.site.world.host.disk.written, live := ⟨false, false⟩ } } }

/-- The host after a command. Its process is gone. -/
def consoleStep (s : Agent α β) (c : Command) : Option (Agent α β) := some (offline (console B N cfg R c s).2)

/-- The agent when the service has answered the request, made by a device with the id of the console. -/
def served (s : Agent α β) (c : Command) : Agent α β :=
  match c.request R with
  | none => s
  | some r =>
    (respond B N cfg (Dnat.encodeKey R.base64) (Dnat.decodeKey R.base64) ⟨0⟩ (.v4 0) (.request r) s).2

/-- The service answers and goes on. -/
def remoteStep (s : Agent α β) (c : Command) : Option (Agent α β) := some (served B N cfg R s c)

/-- The command is checked like the request: SSH is closed for a list that admits somebody, dnat is in use, its
file can be read, and the rule to take over is one that can be requested. -/
def Checked (s : Agent α β) : Command → Prop
  | .sshExpose false true now =>
    (world s).store.entries.any (fun e => !e.isExpired now) = true ∨
      (cfg.publicPortCoveringSsh (world s).store.rulesetFlags).isSome = true
  | .dnatRm _ _ reads => s.site.dnat.present = true ∧ reads.lookup.isOk = true
  | .dnatMigrate listen iface reads _ _ => s.site.dnat.present = true ∧
    ∀ rule ∈ (findDnatRule reads.lookup s.site.dnat listen iface).toOption,
      (validateForwardInput (some rule.iface) rule.remoteHost).isOk = true
  | .allow .. | .revoke _ | .forwardAdd .. | .forwardRm _ _ | .sshExpose _ _ _ | .forwardExpose _ _ => True

instance (s : Agent α β) : (c : Command) → Decidable (Checked cfg s c)
  | .sshExpose false true _ => inferInstanceAs (Decidable (_ ∨ _))
  | .dnatRm _ _ _ | .dnatMigrate _ _ _ _ _ => inferInstanceAs (Decidable (_ ∧ _))
  | .allow _ _ _ _ _ | .revoke _ | .forwardAdd _ _ _ _ _ _ | .forwardRm _ _ | .sshExpose true _ _
  | .sshExpose false false _ | .forwardExpose _ _ => .isTrue trivial

/-- Nothing that the request has changed in memory is missing in the state file. -/
def Saved (s : Agent α β) (c : Command) : Prop := Loaded (world (served B N cfg R s c))

end Session

/-! ## What has been reported -/

/-- The world when nothing has been reported of the table. -/
def quiet {κ : Type} (w : World κ) : World κ := { w with live := ⟨false, false⟩ }

def quietSite {κ : Type} (site : Site κ) : Site κ := { site with world := quiet site.world }

section Quiet

variable {κ : Type} {H : Host κ} {B : NftBackend κ} {N : NatBackend κ} {N' : NatBackend (Machine κ)} {cfg : AgentConfig}
variable {env : ForwardRule → HostEnv} {c : RulesetConfig} {entries : List Entry} {now : DateTime}
variable {parseNet : String → Option IpNet} {reads : DnatReads} {listen iface : String}

theorem quiet_callApply : Erases quiet (callApply H c entries) (callApply H c entries) := by
  intro w
  unfold callApply quiet
  dsimp only
  split <;> rfl

theorem quiet_tryCandidates {cs tried : List (Bool × Bool)} {firstErr : Option String} : Erases quiet
    (tryCandidates H c entries cs tried firstErr) (tryCandidates H c entries cs tried firstErr) := by
  induction cs generalizing tried firstErr with
  | nil => exact erases_fail
  | cons cand rest ih =>
    unfold tryCandidates
    split
    · exact ih
    · refine erases_bind (erases_attempt (erases_mapErr quiet_callApply)) fun r => ?_
      cases r with
      | ok _ => exact erases_pure
      | error e =>
        cases firstErr with
        | none => exact ih
        | some first =>
          dsimp only
          split
          · exact erases_fail
          · exact ih

theorem quiet_applyRuleset : Erases quiet (applyRuleset H c entries) (applyRuleset H c entries) :=
  quiet_tryCandidates

theorem quiet_callSave : Erases quiet (callSave H) (callSave H) := fun _ => rfl

theorem quiet_onStore {ε α : Type} {f : State → α × State} :
    Erases quiet (onStore f : Act (World κ) ε α) (onStore f) := fun _ => rfl

theorem quiet_loadStore : Erases quiet (loadStore (κ := κ)) loadStore := fun _ => rfl

theorem quiet_applyNow : Erases quiet (applyNow H N env) (applyNow H N env) := by
  refine erases_get_bind fun w => ?_
  refine erases_bind (erases_bind (fun _ => rfl) fun _ => ?_) fun _ => erases_pure
  exact erases_bind quiet_onStore fun _ => erases_ignore quiet_callSave

theorem quiet_allowCli {inRange : DateTime → Bool} {target note : String} {ttlSecs : Option UInt64} {id : EntryId} :
    Erases quiet (allowCli B parseNet inRange target note ttlSecs now id)
      (allowCli B parseNet inRange target note ttlSecs now id) :=
  erases_bind erases_lift fun _ => erases_bind quiet_loadStore fun _ => erases_bind erases_lift fun _ =>
    erases_bind quiet_onStore fun _ => erases_bind quiet_callSave fun _ => erases_ignore fun _ => rfl

theorem quiet_revokeCli {target : String} :
    Erases quiet (revokeCli B parseNet target) (revokeCli B parseNet target) :=
  erases_bind erases_lift fun _ => erases_bind quiet_loadStore fun _ => erases_bind quiet_onStore fun _ =>
    erases_onlyIf (erases_bind quiet_callSave fun _ => erases_ignore fun _ => rfl)

theorem quiet_forwardAddCli {a : DnatAdapter} {conf : Except String Unit} {d : Option String} {args : ForwardArgs}
    {id : ForwardId} : Erases quiet (forwardAddCli B N' a conf d env args now id)
      (forwardAddCli B N' a conf d env args now id) :=
  erases_bind erases_lift fun _ => erases_bind quiet_loadStore fun _ => erases_bind quiet_onStore fun _ =>
    erases_bind quiet_callSave fun _ => erases_bind (erases_ignore quiet_applyNow) fun _ => erases_pure

theorem quiet_forwardRmCli {parseUuid : String → Option ForwardId} {id : String} :
    Erases quiet (forwardRmCli B N' parseUuid env id) (forwardRmCli B N' parseUuid env id) :=
  erases_bind erases_lift fun _ => erases_bind quiet_loadStore fun _ => erases_bind quiet_onStore fun _ =>
    erases_onlyIf (erases_bind quiet_callSave fun _ => erases_ignore quiet_applyNow)

theorem quiet_sshExposeCli {openAll allowlist : Bool} :
    Erases quiet (sshExposeCli B cfg openAll allowlist) (sshExposeCli B cfg openAll allowlist) := by
  refine erases_bind erases_lift fun on => erases_bind quiet_loadStore fun _ => erases_get_bind fun w => ?_
  rw [show (quiet w).store = w.store from rfl]
  dsimp only
  cases if on then cfg.publicPortCoveringSsh w.store.rulesetFlags else none with
  | some p => exact erases_fail
  | none =>
    refine erases_bind quiet_onStore fun _ => erases_get_bind fun w' => erases_bind quiet_applyRuleset fun applied => ?_
    cases applied.knock with
    | rejected e => exact erases_bind quiet_applyRuleset fun _ => erases_fail
    | off => exact quiet_callSave
    | active => exact quiet_callSave

theorem quiet_forwardExposeCli {openAll allowlist : Bool} :
    Erases quiet (forwardExposeCli B cfg openAll allowlist) (forwardExposeCli B cfg openAll allowlist) := by
  refine erases_bind erases_lift fun on => erases_bind quiet_loadStore fun _ => erases_bind quiet_onStore fun _ => ?_
  refine erases_get_bind fun w => erases_bind quiet_applyRuleset fun applied => ?_
  cases applied.gate with
  | rejected e => exact erases_fail
  | off => exact quiet_callSave
  | active => exact quiet_callSave

/-! ### With the files of dnat -/

theorem quietSite_onWorld {ε α : Type} {m : Act (World κ) ε α} (h : Erases quiet m m) :
    Erases quietSite (Site.onWorld m) (Site.onWorld m) := by
  intro site
  show ((m (quiet site.world)).1, _) = _
  unfold Site.onWorld zoom quietSite
  dsimp only
  rw [h site.world]

theorem quietSite_callRemovePrefix {answers : ConfAnswers} {key : String} :
    Erases quietSite (callRemovePrefix answers key : Act (Site κ) String Bool) (callRemovePrefix answers key) :=
  fun _ => rfl

theorem quietSite_dnatRmCli : Erases quietSite (dnatRmCli (κ := κ) reads listen iface) (dnatRmCli reads listen iface) :=
  erases_get_bind fun _ => erases_bind erases_lift fun _ => erases_discard quietSite_callRemovePrefix

theorem quietSite_dnatMigrateCli {id : ForwardId} : Erases quietSite (dnatMigrateCli B N' reads listen iface now id)
    (dnatMigrateCli B N' reads listen iface now id) := by
  refine erases_get_bind fun site => erases_bind erases_lift fun rule => erases_bind erases_lift fun _ => ?_
  refine erases_bind (quietSite_onWorld quiet_loadStore) fun _ => erases_get_bind fun site => ?_
  refine erases_bind (erases_onlyIf erases_fail) fun _ => ?_
  refine erases_bind (quietSite_onWorld quiet_onStore) fun newRule => ?_
  refine erases_bind (quietSite_onWorld quiet_callSave) fun _ => ?_
  refine erases_bind (quietSite_onWorld (erases_mapErr (erases_discard quiet_applyNow))) fun _ => ?_
  refine erases_get_bind fun site => ?_
  have hundo : Erases quietSite (undoMigration (machine B) N' reads newRule.id)
      (undoMigration (machine B) N' reads newRule.id) :=
    erases_bind (quietSite_onWorld quiet_onStore) fun _ =>
      erases_bind (quietSite_onWorld (erases_ignore quiet_callSave)) fun _ =>
        quietSite_onWorld (erases_ignore quiet_applyNow)
  rw [show (quietSite site).world.store = site.world.store from rfl]
  split
  · exact erases_bind (erases_mapErr hundo) fun _ => erases_fail
  · exact erases_discard (erases_mapErr quietSite_callRemovePrefix)

end Quiet

/-! ## A command and a request -/

section Steps

variable {α β : Type} {B : NftBackend α} {N : NatBackend β} {cfg : AgentConfig} {R : Readers} {s : Agent α β}

def quietAgent (s : Agent α β) : Agent α β := { s with site := quietSite s.site }

theorem quietAgent_onSite {γ : Type} {m : Act (Site (Machine (α × β))) String γ} (h : Erases quietSite m m) :
    Erases quietAgent (onSite m : Act (Agent α β) String Unit) (onSite m) := by
  refine erases_discard fun s => ?_
  show ((m (quietSite s.site)).1, _) = _
  unfold zoom quietAgent
  dsimp only
  rw [h s.site]

/-- A command does not go by what the service has reported. -/
theorem quietAgent_console (c : Command) : Erases quietAgent (console B N cfg R c) (console B N cfg R c) := by
  cases c with
  | allow target note ttlSecs now id => exact quietAgent_onSite (quietSite_onWorld quiet_allowCli)
  | revoke target => exact quietAgent_onSite (quietSite_onWorld quiet_revokeCli)
  | forwardAdd args conf defaultIface env now id =>
    exact erases_get_bind fun s => quietAgent_onSite (quietSite_onWorld quiet_forwardAddCli)
  | forwardRm id env => exact quietAgent_onSite (quietSite_onWorld quiet_forwardRmCli)
  | dnatRm listen iface reads => exact quietAgent_onSite quietSite_dnatRmCli
  | dnatMigrate listen iface reads now id => exact quietAgent_onSite quietSite_dnatMigrateCli
  | sshExpose openAll allowlist now => exact quietAgent_onSite (quietSite_onWorld quiet_sshExposeCli)
  | forwardExpose openAll allowlist => exact quietAgent_onSite (quietSite_onWorld quiet_forwardExposeCli)

theorem offline_eq (h : Loaded (world s)) : offline s = quietAgent s := by
  have hwritten : s.site.world.host.disk.written = s.site.world.store := h.symm
  unfold offline quietAgent quietSite quiet
  rw [hwritten]

/-- It does not matter that the process of a command does not know what the service knows. -/
theorem consoleStep_offline (c : Command) (h : Loaded (world s)) :
    consoleStep B N cfg R (offline s) c = consoleStep B N cfg R s c := by
  unfold consoleStep
  rw [offline_eq h, quietAgent_console c s]
  rfl

/-- The agent with another world. -/
def withWorld (s : Agent α β) (w : World (Machine (α × β))) : Agent α β := { s with site := { s.site with world := w } }

theorem offline_withWorld {w w' : World (Machine (α × β))} (hhost : w.host = w'.host)
    (hacc : w.accepted = w'.accepted) : offline (withWorld s w) = offline (withWorld s w') := by
  unfold offline withWorld
  dsimp only
  rw [hhost, hacc]

/-- Where a request does nothing more than a handler on the world. -/
theorem onWorld_state {γ : Type} {m : Act (World (Machine (α × β))) ApiError γ} {f : γ → Payload} :
    ((Dispatch.onWorld m >>= fun a => pure (f a) : Act (Agent α β) ApiError Payload) s).2 =
      withWorld s (m (world s)).2 :=
  (leaves_bind_right (m := Dispatch.onWorld m) (fun _ => rfl) (fun _ _ => rfl) s).symm

theorem console_onWorld {δ : Type} {m : Act (World (Machine (α × β))) String δ} :
    (onSite (Site.onWorld m) s).2 = withWorld s (m (world s)).2 := rfl

variable (B N cfg R s) in
/-- The host after the command is that after the request. -/
def Same (c : Command) : Prop := consoleStep B N cfg R s c = (remoteStep B N cfg R s c).map offline

/-- A command that ends like a handler on the world. -/
theorem same_of_world {c : Command} {r : RpcRequest} {γ δ : Type} {m : Act (World (Machine (α × β))) String δ}
    {m' : Act (World (Machine (α × β))) ApiError γ} {f : γ → Payload}
    (hcommand : (console B N cfg R c s).2 = (onSite (Site.onWorld m) s).2) (hrequest : c.request R = some r)
    (hrespond : (respond B N cfg (Dnat.encodeKey R.base64) (Dnat.decodeKey R.base64) ⟨0⟩ (.v4 0) (.request r) s).2 =
      ((Dispatch.onWorld m' >>= fun a => pure (f a) : Act (Agent α β) ApiError Payload) s).2)
    (hsame : (m (world s)).2.host = (m' (world s)).2.host ∧ (m (world s)).2.accepted = (m' (world s)).2.accepted) :
    Same B N cfg R s c := by
  unfold Same consoleStep remoteStep served
  rw [hrequest]
  dsimp only
  rw [hcommand, hrespond, onWorld_state, console_onWorld, Option.map_some, offline_withWorld hsame.1 hsame.2]

/-- A command that leaves the world like a handler. -/
theorem same_of_handler {c : Command} {r : RpcRequest} {γ δ : Type} {m : Act (World (Machine (α × β))) String δ}
    {m' : Act (World (Machine (α × β))) ApiError γ} {f : γ → Payload}
    (hcommand : (console B N cfg R c s).2 = (onSite (Site.onWorld m) s).2) (hrequest : c.request R = some r)
    (hrespond : (respond B N cfg (Dnat.encodeKey R.base64) (Dnat.decodeKey R.base64) ⟨0⟩ (.v4 0) (.request r) s).2 =
      ((Dispatch.onWorld m' >>= fun a => pure (f a) : Act (Agent α β) ApiError Payload) s).2)
    (hsame : (m (world s)).2 = (m' (world s)).2) : Same B N cfg R s c :=
  same_of_world hcommand hrequest hrespond ⟨congrArg World.host hsame, congrArg World.accepted hsame⟩

theorem same_of_site {c : Command} {r : RpcRequest} {γ δ : Type} {m : Act (Site (Machine (α × β))) String δ}
    {m' : Act (Site (Machine (α × β))) ApiError γ} {f : γ → Payload}
    (hcommand : (console B N cfg R c s).2 = (onSite m s).2) (hrequest : c.request R = some r)
    (hrespond : (respond B N cfg (Dnat.encodeKey R.base64) (Dnat.decodeKey R.base64) ⟨0⟩ (.v4 0) (.request r) s).2 =
      ((Dispatch.onSite m' >>= fun a => pure (f a) : Act (Agent α β) ApiError Payload) s).2)
    (hsite : (m s.site).2 = (m' s.site).2) : Same B N cfg R s c := by
  have hstate : ((Dispatch.onSite m' >>= fun a => pure (f a) : Act (Agent α β) ApiError Payload) s).2 =
      { s with site := (m' s.site).2 } :=
    (leaves_bind_right (m := Dispatch.onSite m') (fun _ => rfl) (fun _ _ => rfl) s).symm
  have hcli : (onSite m s).2 = { s with site := (m s.site).2 } := rfl
  unfold Same consoleStep remoteStep served
  rw [hrequest]
  dsimp only
  rw [hcommand, hrespond, hstate, hcli, hsite, Option.map_some]

/-- A command whose arguments cannot be read does nothing. -/
theorem same_of_unread {c : Command} (hrequest : c.request R = none) (hcommand : (console B N cfg R c s).2 = s) :
    Same B N cfg R s c := by
  unfold Same consoleStep remoteStep served
  rw [hrequest, hcommand, Option.map_some]

section Commands

variable {target note id listen iface : String} {now : DateTime} {env : ForwardRule → HostEnv} {reads : DnatReads}
variable {ttlSecs : Option UInt64} {args : ForwardArgs} {conf : Except String Unit} {defaultIface : Option String}
variable {openAll allowlist : Bool}

theorem allow_same {entry : EntryId} (h : Loaded (world s)) : Same B N cfg R s (.allow target note ttlSecs now entry) := by
  cases hnet : R.net target with
  | none =>
    refine same_of_unread (by simp [Command.request, hnet]) ?_
    show withWorld s (allowCli (onFirst B) R.net R.inRange target note ttlSecs now entry (world s)).2 = s
    unfold allowCli
    rw [hnet]
    rfl
  | some net =>
    cases hexpiry : expiry R.inRange now ttlSecs with
    | error e =>
      refine same_of_unread (by simp [Command.request, hnet, hexpiry, Except.toOption]) ?_
      show withWorld s (allowCli (onFirst B) R.net R.inRange target note ttlSecs now entry (world s)).2 = s
      rw [allowCli_stopped h hnet hexpiry]
      rfl
    | ok expiresAt =>
      have hrequest : (Command.allow target note ttlSecs now entry).request R =
          some (.allow ⟨net, note, expiresAt⟩ now entry) := by
        simp [Command.request, hnet, hexpiry, Except.toOption]
      exact same_of_handler rfl hrequest rfl (allowCli_leaves h hnet hexpiry)

theorem revoke_same (h : Loaded (world s)) : Same B N cfg R s (.revoke target) := by
  cases hnet : R.net target with
  | none =>
    refine same_of_unread (by simp [Command.request, hnet]) ?_
    show withWorld s (revokeCli (onFirst B) R.net target (world s)).2 = s
    unfold revokeCli
    rw [hnet]
    rfl
  | some net =>
    have hrequest : (Command.revoke target).request R = some (.revoke (.target net)) := by
      simp [Command.request, hnet]
    exact same_of_handler rfl hrequest rfl (revokeCli_leaves h hnet)

theorem forwardAdd_same {rule : ForwardId} (h : Loaded (world s)) :
    Same B N cfg R s (.forwardAdd args conf defaultIface env now rule) := by
  cases hreq : requestOf args with
  | error e =>
    refine same_of_unread (by simp [Command.request, hreq, Except.toOption]) ?_
    show withWorld s
      (forwardAddCli (onFirst B) (nat N) s.site.dnat conf defaultIface env args now rule (world s)).2 = s
    unfold forwardAddCli acceptForward
    rw [hreq]
    rfl
  | ok req =>
    have hrequest : (Command.forwardAdd args conf defaultIface env now rule).request R =
        some (.addForward req ⟨defaultIface, conf, defaultIface, env⟩ now rule) := by
      simp [Command.request, hreq, Except.toOption]
    exact same_of_handler rfl hrequest rfl (addForward_leaves hreq h)

theorem forwardRm_same (h : Loaded (world s)) : Same B N cfg R s (.forwardRm id env) := by
  cases hid : R.uuid (Text.trim id) with
  | none =>
    refine same_of_unread (by simp [Command.request, hid]) ?_
    show withWorld s (forwardRmCli (onFirst B) (nat N) R.uuid env id (world s)).2 = s
    unfold forwardRmCli
    rw [hid]
    rfl
  | some rule =>
    have hrequest : (Command.forwardRm id env).request R = some (.removeForward rule env) := by
      simp [Command.request, hid]
    exact same_of_handler rfl hrequest rfl (forwardRmCli_leaves h hid)

theorem dnatRm_request_same (hE : ∀ bytes, R.base64.decode (R.base64.encode bytes) = some bytes)
    (hchecked : Checked cfg s (.dnatRm listen iface reads)) :
    Same B N cfg R s (.dnatRm listen iface reads) := by
  cases hports : parsePortRange listen.toList with
  | error e =>
    refine same_of_unread (by simp [Command.request, hports, Except.toOption]) ?_
    show ({ s with site := (dnatRmCli reads listen iface s.site).2 } : Agent α β) = s
    rw [dnatRmCli_unfound (findDnatRule_unread hports)]
  | ok ports =>
    refine same_of_site rfl (by simp [Command.request, hports, Except.toOption]; rfl) rfl ?_
    exact dnatRm_same hE hports hchecked.1 hchecked.2

theorem dnatMigrate_request_same (hE : ∀ bytes, R.base64.decode (R.base64.encode bytes) = some bytes)
    {rule : ForwardId} (h : Loaded (world s))
    (hchecked : Checked cfg s (.dnatMigrate listen iface reads now rule)) :
    Same B N cfg R s (.dnatMigrate listen iface reads now rule) := by
  cases hports : parsePortRange listen.toList with
  | error e =>
    refine same_of_unread (by simp [Command.request, hports, Except.toOption]) ?_
    show ({ s with site := (dnatMigrateCli (onFirst B) (nat N) reads listen iface now rule s.site).2 } : Agent α β) = s
    rw [dnatMigrateCli_unfound (findDnatRule_unread hports)]
  | ok ports =>
    refine same_of_site rfl (by simp [Command.request, hports, Except.toOption]; rfl) rfl ?_
    exact dnatMigrate_same hE hports h hchecked.1 hchecked.2

/-- Both switches or none is no command. -/
theorem sshExpose_same (h : Loaded (world s)) (hchecked : Checked cfg s (.sshExpose openAll allowlist now)) :
    Same B N cfg R s (.sshExpose openAll allowlist now) := by
  cases openAll with
  | true =>
    cases allowlist with
    | true => exact same_of_unread rfl rfl
    | false => exact same_of_world rfl rfl rfl ((sshExposeCli_opens h).same setSshExposure_opens)
  | false =>
    cases allowlist with
    | true => exact same_of_world rfl rfl rfl (closes_same h hchecked)
    | false => exact same_of_unread rfl rfl

theorem forwardExpose_request_same (h : Loaded (world s)) : Same B N cfg R s (.forwardExpose openAll allowlist) := by
  cases openAll with
  | true =>
    cases allowlist with
    | true => exact same_of_unread rfl rfl
    | false => exact same_of_world rfl rfl rfl (forwardExpose_same false h)
  | false =>
    cases allowlist with
    | true => exact same_of_world rfl rfl rfl (forwardExpose_same true h)
    | false => exact same_of_unread rfl rfl

end Commands

/-- A step of the console leaves the host like one of the service. -/
theorem step_same (hE : ∀ bytes, R.base64.decode (R.base64.encode bytes) = some bytes) {c : Command}
    (h : Loaded (world s)) (hchecked : Checked cfg s c) : Same B N cfg R s c := by
  cases c with
  | allow target note ttlSecs now id => exact allow_same h
  | revoke target => exact revoke_same h
  | forwardAdd args conf defaultIface env now id => exact forwardAdd_same h
  | forwardRm id env => exact forwardRm_same h
  | dnatRm listen iface reads => exact dnatRm_request_same hE hchecked
  | dnatMigrate listen iface reads now id => exact dnatMigrate_request_same hE h hchecked
  | sshExpose openAll allowlist now => exact sshExpose_same h hchecked
  | forwardExpose openAll allowlist => exact forwardExpose_request_same h

end Steps

/-- The memory is what the file says, and the disk takes what is saved next. -/
structure Settled {κ : Type} (w : World (Machine κ)) : Prop where
  loaded : Loaded w
  willing : w.host.disk.answers = []

/-- From a disk that takes every save, the file says in the end what is in memory. -/
def Settles {κ ε α : Type} (m : Act (World (Machine κ)) ε α) : Prop :=
  ∀ w, w.host.disk.answers = [] → Settled (m w).2

section Saves

variable {κ ε α γ : Type} {B : NftBackend κ} {N : NatBackend κ} {cfg : AgentConfig} {w : World (Machine κ)}
variable {env : ForwardRule → HostEnv} {now : DateTime} {m : Act (World (Machine κ)) ε α}

theorem Settles.preserves (h : Settles m) : Preserves Settled m := fun w hw => h w hw.willing

theorem Settles.bind {f : α → Act (World (Machine κ)) ε γ} (h : Settles m) (hf : ∀ a, Preserves Settled (f a)) :
    Settles (m >>= f) := by
  intro w hw
  have hm := h w hw
  show wp (m >>= f) (fun _ w' => Settled w') w
  rw [wp_bind]
  unfold wp
  cases hr : (m w).1 with
  | error e => exact hm
  | ok a => exact hf a _ hm

theorem settles_onStore_bind {g : State → α × State} {f : α → Act (World (Machine κ)) ε γ} (hf : ∀ a, Settles (f a)) :
    Settles (onStore g >>= f) := fun w hw => hf _ { w with store := (g w.store).2 } hw

theorem settles_callSave : Settles (callSave (machine B)) := by
  intro w hw
  have hdisk : (callSave (machine B) w).2.host.disk = ⟨w.store, []⟩ := by
    show (w.host.disk.save w.store).2 = _
    unfold Disk.save
    rw [hw]
  exact ⟨(congrArg Disk.written hdisk).symm, congrArg Disk.answers hdisk⟩

theorem settles_saveStore : Settles (saveStore (machine B)) := settles_callSave

/-- What leaves the memory and the disk alone. -/
theorem settled_of_keeps (h : Keeps (fun w => (w.store, w.host.disk)) m) : Preserves Settled m := by
  refine h.preserves fun w w' heq hw => ?_
  obtain ⟨hstore, hdisk⟩ := Prod.mk.inj heq
  constructor
  · unfold Loaded
    rw [hstore, hdisk]
    exact hw.loaded
  · rw [hdisk]
    exact hw.willing

theorem settled_applyRuleset {c : RulesetConfig} {entries : List Entry} :
    Preserves Settled (applyRuleset (machine B) c entries) := by
  refine settled_of_keeps (keeps_applyRuleset fun c w => ?_)
  unfold callApply
  split
  · next h => exact Prod.ext rfl (congrArg (fun r => r.2.disk) h).symm
  · next h => exact Prod.ext rfl (congrArg (fun r => r.2.disk) h).symm

theorem settled_reapplyRuleset {flags : RulesetFlags} {entries : List Entry} :
    Preserves Settled (reapplyRuleset (machine B) cfg flags entries) :=
  preserves_bind (preserves_mapErr settled_applyRuleset) fun _ =>
    preserves_bind (settled_of_keeps fun _ => rfl) fun _ => preserves_pure

theorem settles_commit {f : State → State} : Settles (commit (machine B) cfg f) :=
  settles_onStore_bind fun _ => settles_saveStore.bind fun _ => preserves_bind preserves_get fun _ => preserves_pure

/-- Nothing has been removed, or the removal is saved. -/
theorem settled_remove {g : State → Bool × State} {e : ApiError} {rest : Act (World (Machine κ)) ApiError γ}
    (hfalse : ∀ s, (g s).1 = false → (g s).2 = s) (hrest : Settles rest) :
    Preserves Settled (onStore g >>= fun removed => rejectIf (!removed) e >>= fun _ => rest) := by
  intro w hw
  show Settled ((rejectIf (!(g w.store).1) e >>= fun _ => rest) { w with store := (g w.store).2 }).2
  cases hremoved : (g w.store).1 with
  | false =>
    rw [hfalse _ hremoved]
    exact hw
  | true => exact hrest _ hw.willing

theorem settles_allow {who : DeviceId} {req : AllowRequest} {id : EntryId} :
    Settles (allow (machine B) who req now id) :=
  settles_onStore_bind fun _ => settles_saveStore.bind fun _ =>
    preserves_bind (preserves_mapErr (settled_of_keeps fun _ => rfl)) fun _ => preserves_pure

theorem settled_revoke {req : RevokeRequest} : Preserves Settled (revoke (machine B) req) := by
  refine preserves_bind preserves_get fun w => ?_
  cases revokeTarget w.store req with
  | none => exact preserves_fail
  | some target =>
    exact settled_remove (fun _ => State.revokeByTarget_false)
      (settles_saveStore.bind fun _ => preserves_mapErr (settled_of_keeps fun _ => rfl))

theorem settled_setSshExposure {on : Bool} : Preserves Settled (setSshExposure (machine B) cfg on now) := by
  refine preserves_bind preserves_get fun w => preserves_bind (preserves_onlyIf preserves_fail) fun _ => ?_
  dsimp only
  split
  · exact preserves_fail
  · refine preserves_bind settled_reapplyRuleset fun applied => ?_
    cases applied.knock with
    | rejected e => exact preserves_bind settled_reapplyRuleset fun _ => preserves_fail
    | off => exact settles_commit.preserves
    | active => exact settles_commit.preserves

theorem settled_setForwardExposure {on : Bool} : Preserves Settled (setForwardExposure (machine B) cfg on) := by
  refine preserves_bind preserves_get fun w => preserves_bind settled_reapplyRuleset fun applied => ?_
  cases applied.gate with
  | rejected e => exact preserves_fail
  | off => exact settles_commit.preserves
  | active => exact settles_commit.preserves

/-! ### Forwards -/

theorem settled_applyNow : Preserves Settled (applyNow (machine B) (machineNat N) env) := by
  have hinstall (resolved : List ResolvedForward) : Preserves Settled (installNat (machineNat N) resolved) := by
    refine settled_of_keeps fun w => ?_
    unfold installNat
    dsimp only
    split <;> rfl
  have hsave : Settles (ignore (callSave (machine B)) : Act (World (Machine κ)) String Unit) := settles_callSave
  refine preserves_bind preserves_get fun w => preserves_bind (preserves_bind (hinstall _) fun _ => ?_) fun _ =>
    preserves_pure
  exact (settles_onStore_bind fun _ => hsave).preserves

theorem settled_applyForwards : Preserves Settled (applyForwards (machine B) (machineNat N) env) :=
  preserves_bind (preserves_mapErr settled_applyNow) fun _ => preserves_pure

theorem settled_addForward {a : DnatAdapter} {reads : ForwardReads} {who : DeviceId} {req : AddForwardRequest}
    {id : ForwardId} : Preserves Settled (addForward (machine B) (machineNat N) a reads who req now id) := by
  refine preserves_bind preserves_lift fun _ => Settles.preserves ?_
  exact settles_onStore_bind fun _ => settles_saveStore.bind fun _ =>
    preserves_bind settled_applyForwards fun _ => preserves_bind preserves_get fun _ => preserves_pure

theorem settled_removeForward {id : ForwardId} :
    Preserves Settled (removeForward (machine B) (machineNat N) env id) :=
  settled_remove (fun _ => State.removeForward_false) (settles_saveStore.bind fun _ => settled_applyForwards)

theorem settled_onWorld {m : Act (World (Machine κ)) ε α} (h : Preserves Settled m) :
    Preserves (fun site => Settled site.world) (Site.onWorld m) := fun site hsite => h site.world hsite

theorem settled_callRemovePrefix {answers : ConfAnswers} {key : String} : Preserves (fun site => Settled site.world)
    (callRemovePrefix answers key : Act (Site (Machine κ)) String Bool) := fun _ h => h

theorem settled_removeDnatForward {decodeKey : String → Option String} {reads : DnatReads} {key : String} :
    Preserves (fun site => Settled site.world)
      (removeDnatForward decodeKey reads key : Act (Site (Machine κ)) ApiError Unit) :=
  preserves_bind preserves_get fun _ => preserves_bind preserves_lift fun _ =>
    preserves_bind (preserves_mapErr settled_callRemovePrefix) fun _ => preserves_onlyIf preserves_fail

theorem settled_undoMigration {reads : DnatReads} {id : ForwardId} : Preserves (fun site => Settled site.world)
    (undoMigration (machine B) (machineNat N) reads id) := by
  have hsave : Settles (ignore (callSave (machine B)) : Act (World (Machine κ)) ApiError Unit) := settles_callSave
  intro site hsite
  have hremoved : Settled (ignore (callSave (machine B))
      { site.world with store := (site.world.store.removeForward id).2 } : Except ApiError Unit × _).2 :=
    hsave _ hsite.willing
  exact settled_onWorld (preserves_ignore settled_applyNow) { site with world := _ } hremoved

theorem settled_finishMigration {reads : DnatReads} {dnatKey : String} {rule : ForwardRule} :
    Preserves (fun site => Settled site.world) (finishMigration (machine B) (machineNat N) reads dnatKey rule) := by
  refine preserves_bind preserves_get fun site => ?_
  split
  · exact preserves_bind settled_undoMigration fun _ => preserves_fail
  · exact preserves_bind (preserves_mapErr settled_callRemovePrefix) fun _ =>
      settled_onWorld (preserves_bind preserves_get fun _ => preserves_pure)

/-- A change of the store that is saved before anything else. -/
theorem settled_onWorld_save {g : State → α × State} {f : α → Act (Site (Machine κ)) ApiError γ}
    (hf : ∀ a, Preserves (fun site => Settled site.world) (f a)) : Preserves (fun site => Settled site.world)
      (Site.onWorld (onStore g) >>= fun a => Site.onWorld (saveStore (machine B)) >>= fun _ => f a) := by
  intro site hsite
  have hsaved : Settled (saveStore (machine B) { site.world with store := (g site.world.store).2 }).2 :=
    settles_saveStore _ hsite.willing
  have hrest : wp (Site.onWorld (saveStore (machine B)) >>= fun _ => f (g site.world.store).1)
      (fun _ site' => Settled site'.world)
      { site with world := { site.world with store := (g site.world.store).2 } } := by
    rw [wp_bind]
    unfold Site.onWorld wp zoom
    dsimp only
    cases (saveStore (machine B) { site.world with store := (g site.world.store).2 }).1 with
    | error e => exact hsaved
    | ok => exact hf _ { site with world := _ } hsaved
  exact hrest

theorem settled_migrateDnatForward {decodeKey : String → Option String} {reads : DnatReads} {who : DeviceId}
    {key : String} {id : ForwardId} : Preserves (fun site => Settled site.world)
      (migrateDnatForward (machine B) (machineNat N) decodeKey reads who key now id) :=
  preserves_bind preserves_get fun _ => preserves_bind preserves_lift fun _ => settled_onWorld_save fun _ =>
    preserves_bind (settled_onWorld settled_applyForwards) fun _ => settled_finishMigration

end Saves

section Served

variable {α β : Type} {B : NftBackend α} {N : NatBackend β} {cfg : AgentConfig} {R : Readers} {s : Agent α β}

theorem settled_answer {γ : Type} {m : Act (World (Machine (α × β))) ApiError γ} {f : γ → Payload}
    (hm : Preserves Settled m) (h : Settled (world s)) :
    Settled (world ((Dispatch.onWorld m >>= fun a => pure (f a) : Act (Agent α β) ApiError Payload) s).2) := by
  rw [onWorld_state]
  exact hm _ h

theorem settled_answer_site {γ : Type} {m : Act (Site (Machine (α × β))) ApiError γ} {f : γ → Payload}
    (hm : Preserves (fun site => Settled site.world) m) (h : Settled (world s)) :
    Settled (world ((Dispatch.onSite m >>= fun a => pure (f a) : Act (Agent α β) ApiError Payload) s).2) := by
  have hstate : ((Dispatch.onSite m >>= fun a => pure (f a) : Act (Agent α β) ApiError Payload) s).2 =
      { s with site := (m s.site).2 } :=
    (leaves_bind_right (m := Dispatch.onSite m) (fun _ => rfl) (fun _ _ => rfl) s).symm
  rw [hstate]
  exact hm _ h

/-- A service on a disk that takes every save keeps its memory as the file says. -/
theorem settled_served (c : Command) (h : Settled (world s)) : Settled (world (served B N cfg R s c)) := by
  unfold served
  -- A command whose arguments are not read makes no request.
  cases hrequest : c.request R with
  | none => exact h
  | some r =>
    cases c with
    | allow target note ttlSecs now id =>
      obtain ⟨net, -, hrequest⟩ := Option.bind_eq_some_iff.mp hrequest
      obtain ⟨expiresAt, -, hrequest⟩ := Option.bind_eq_some_iff.mp hrequest
      cases hrequest
      exact settled_answer settles_allow.preserves h
    | revoke target =>
      obtain ⟨net, -, rfl⟩ := Option.map_eq_some_iff.mp hrequest
      exact settled_answer settled_revoke h
    | forwardAdd args conf defaultIface env now id =>
      obtain ⟨req, -, rfl⟩ := Option.map_eq_some_iff.mp hrequest
      exact settled_answer settled_addForward h
    | forwardRm id env =>
      obtain ⟨rule, -, rfl⟩ := Option.map_eq_some_iff.mp hrequest
      exact settled_answer settled_removeForward h
    | dnatRm listen iface reads =>
      obtain ⟨ports, -, rfl⟩ := Option.map_eq_some_iff.mp hrequest
      exact settled_answer_site settled_removeDnatForward h
    | dnatMigrate listen iface reads now id =>
      obtain ⟨ports, -, rfl⟩ := Option.map_eq_some_iff.mp hrequest
      exact settled_answer_site settled_migrateDnatForward h
    | sshExpose openAll allowlist now =>
      obtain ⟨on, -, rfl⟩ := Option.map_eq_some_iff.mp hrequest
      exact settled_answer settled_setSshExposure h
    | forwardExpose openAll allowlist =>
      obtain ⟨on, -, rfl⟩ := Option.map_eq_some_iff.mp hrequest
      exact settled_answer settled_setForwardExposure h

/-- On such a disk no request leaves a change in memory only. -/
theorem saved_of_settled (cs : List Command) (h : Settled (world s)) :
    Lts.StepsMeet (remoteStep B N cfg R) (Saved B N cfg R) s cs := by
  induction cs generalizing s with
  | nil => trivial
  | cons c cs ih =>
    have hserved : Settled (world (served B N cfg R s c)) := settled_served c h
    refine ⟨hserved.loaded, fun t hstep => ?_⟩
    cases hstep
    exact ih hserved

end Served

/-! ### An evening at the console -/

/-- Every target is one address, and every id is one. -/
def plainReaders : Readers where
  net _ := some (.host (.v4 (ipv4 203 0 113 7)))
  uuid _ := some ⟨1⟩
  inRange _ := true
  base64 := Dnat.urlSafe

/-- The agent is running, and dnat has two rules. -/
def servingHost : Agent Unit Unit :=
  { idleAgent with site := { idleAgent.site with
      dnat := ⟨true, "443>eth0>192.0.2.1:8443>auto\n53>eth0>192.0.2.2:53>auto\n", []⟩ } }

/-- An address is admitted for an hour, SSH and forwards are closed to others, one rule of dnat is taken over and
the other removed, the rule is removed in turn, and SSH is opened. -/
def evening : List Command :=
  [.allow "203.0.113.7" "laptop" (some 3600) 0 ⟨7⟩, .sshExpose false true 0, .forwardExpose false true,
    .dnatMigrate "443" "eth0" (Migration.plainReads (.ok ())) 0 ⟨1⟩,
    .dnatRm "53" "eth0" (Migration.plainReads (.ok ())), .forwardRm " 1 " fun _ => eth0, .sshExpose true false 0]

end Ipgate.Cli
