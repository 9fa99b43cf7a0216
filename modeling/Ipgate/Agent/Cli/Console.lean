-- SUMMARY: main.rs: the console commands on the files of the host, and where the handlers end for the same things.
import Ipgate.Agent.Api.Dispatch
import Ipgate.Agent.Cli.ForwardAdd
import Ipgate.Agent.Api.Migration
import Ipgate.Agent.Dnat.Key
import Ipgate.Lib.Lts

/-!
# The console

Each command is a process of its own: it reads the state file, changes it and the kernel, and ends.
For each there is a remote request to the service, with a handler of its own. On a store that is what
the file says, the command leaves the host like the handler.
-/

namespace Ipgate.Cli

open Net Act Dispatch

/-! ## The commands -/

section Commands

variable {κ : Type} (B : NftBackend κ) (N : NatBackend (Machine κ)) (cfg : AgentConfig)

/-- The greatest number of seconds of a duration. -/
def maxSeconds : ℕ := 9223372036854775

/-- When an entry expires that is to last for some seconds. The number is read as a signed one, and the
program stops on a duration or a time that is out of range. -/
def expiry (inRange : DateTime → Bool) (now : DateTime) : Option UInt64 → Except String (Option DateTime)
  | none => .ok none
  | some ttl =>
    let secs := ttl.toInt64.toInt
    if secs.natAbs > maxSeconds then .error "TimeDelta::seconds out of bounds"
    else if inRange (now + secs * 1000000000) then .ok (some (now + secs * 1000000000))
    else .error "`DateTime + TimeDelta` overflowed"

/-- Admit a target; the kernel has it at once if there is a table. -/
def allowCli (parseNet : String → Option IpNet) (inRange : DateTime → Bool) (target note : String)
    (ttlSecs : Option UInt64) (now : DateTime) (id : EntryId) : Act (World (Machine κ)) String Unit := do
  let net ← .lift (orError ("非法 IP/CIDR: " ++ target) (parseNet target))
  loadStore
  let expiresAt ← .lift (expiry inRange now ttlSecs)
  let entry ← onStore fun s => s.allow ⟨net, note, expiresAt⟩ ⟨0⟩ now id
  callSave (machine B)
  .ignore (callAdd (machine B) entry)

def revokeCli (parseNet : String → Option IpNet) (target : String) : Act (World (Machine κ)) String Unit := do
  let net ← .lift (orError ("非法 IP/CIDR: " ++ target) (parseNet target))
  loadStore
  let removed ← onStore fun s => s.revokeByTarget net
  .onlyIf removed do
    callSave (machine B)
    .ignore (callRemove (machine B) net)

def forwardRmCli (parseUuid : String → Option ForwardId) (env : ForwardRule → HostEnv) (id : String) :
    Act (World (Machine κ)) String Unit := do
  let id ← .lift (orError "非法 id（应为 uuid）" (parseUuid (Text.trim id)))
  loadStore
  let removed ← onStore fun s => s.removeForward id
  .onlyIf removed do
    callSave (machine B)
    .ignore (applyNow (machine B) N env)

/-- The rule of dnat for the ports and the interface. -/
def findDnatRule (lookup : Except String Unit) (a : DnatAdapter) (listen iface : String) : Except String DnatRule := do
  let listen ← parsePortRange listen.toList
  orError ("无匹配的 dnat 规则：" ++ iface ++ " :" ++ fmtPorts listen)
    ((if lookup.isOk then a.rules else []).find? fun r => r.listen = listen && r.iface = iface)

def dnatRmCli (reads : DnatReads) (listen iface : String) : Act (Site (Machine κ)) String Unit := do
  let site ← .get
  let rule ← .lift (findDnatRule reads.lookup site.dnat listen iface)
  .discard (callRemovePrefix reads.conf rule.prefixKey)

/-- Take a rule of dnat over: the same steps as for the remote request, on the state file. -/
def dnatMigrateCli (reads : DnatReads) (listen iface : String) (now : DateTime) (id : ForwardId) :
    Act (Site (Machine κ)) String Unit := do
  let site ← .get
  let rule ← .lift (findDnatRule reads.lookup site.dnat listen iface)
  let req := dnatRuleToAddRequest rule
  .lift ((validatePorts req.listen req.destPort).mapError fun e => "该 dnat 规则的端口映射 native 不支持，无法迁移：" ++ e)
  Site.onWorld loadStore
  let site ← .get
  .onlyIf (clobbers site.world.store reads.defaultIface rule)
    (.fail "目标 (网卡,端口) 已有 native 转发，迁移会覆盖它；请先处理后再迁移")
  let newRule ← Site.onWorld (onStore fun s => s.addForward req ⟨0⟩ now id)
  Site.onWorld (callSave (machine B))
  Site.onWorld (.mapErr (fun _ => "native 落地失败（已写存储，未撤 dnat）")
    (.discard (applyNow (machine B) N reads.pass)))
  let site ← .get
  if (site.world.store.resolvedIp newRule.id).isNone then do
    .mapErr ApiError.message (undoMigration (machine B) N reads newRule.id)
    .fail "native 规则未能解析/生效（如域名暂时解析失败），已保留原 dnat，请稍后重试"
  else
    .discard (.mapErr (fun _ => "native 已生效，但撤原 dnat 规则失败（dnat 仍在服务，可重试或手动 dnat-rm）")
      (callRemovePrefix reads.conf rule.prefixKey))

/-- Which of the two switches is given. -/
def forwardMode : Bool → Bool → Except String Bool
  | true, false => .ok false
  | false, true => .ok true
  | _, _ => .error "请二选一指定 --open（转发对所有人开放）或 --allowlist（仅放行名单）"

/-- Switch the gate of forwards. Without the gate in the kernel the setting is not saved. -/
def forwardExposeCli (openAll allowlist : Bool) : Act (World (Machine κ)) String Unit := do
  let on ← .lift (forwardMode openAll allowlist)
  loadStore
  let _ ← onStore fun s => s.setForwardAllowlistOnly on
  let w ← .get
  let applied ← applyRuleset (machine B) (cfg.rulesetWith w.store.rulesetFlags) w.store.entries
  match applied.gate with
  | .rejected e => .fail (gateRejected e).message
  | _ => callSave (machine B)

end Commands

/-! ## Where a command and a request end -/

section Ends

variable {κ : Type} {B : NftBackend κ} {N : NatBackend (Machine κ)} {cfg : AgentConfig}
variable {w : World (Machine κ)} {who : DeviceId} {now : DateTime}

/-- The state file is what is in memory. -/
def Loaded (w : World (Machine κ)) : Prop := w.store = w.host.disk.written

/-- Loading the file again changes nothing. -/
theorem loadStore_leaves {γ : Type} {k : Unit → Act (World (Machine κ)) String γ} {w' : World (Machine κ)}
    (h : Loaded w) (hk : (k () w).2 = w') : ((loadStore >>= k) w).2 = w' := by
  have hw : ({ w with store := w.host.disk.written } : World (Machine κ)) = w := by rw [← h]
  show (k () { w with store := w.host.disk.written }).2 = w'
  rw [hw, hk]

theorem onWorld_loadStore_leaves {γ : Type} {k : Unit → Act (Site (Machine κ)) String γ} {site site' : Site (Machine κ)}
    (h : Loaded site.world) (hk : (k () site).2 = site') : ((Site.onWorld loadStore >>= k) site).2 = site' := by
  have hsite : ({ site with world := { site.world with store := site.world.host.disk.written } } : Site (Machine κ)) =
      site := by rw [← h]
  show (k () { site with world := { site.world with store := site.world.host.disk.written } }).2 = site'
  rw [hsite, hk]

theorem alike_onStore {γ : Type} {f : State → γ × State} : Alike (onStore f : Act (World (Machine κ)) String γ)
    (onStore f : Act (World (Machine κ)) ApiError γ) := ⟨fun _ => rfl, fun _ => rfl⟩

/-! ### The allowlist -/

/-- Admitting a target, with what the kernel makes of it aside. -/
theorem allow_leaves {req : AllowRequest} {id : EntryId} : Leaves
    (do
      let entry ← onStore fun s => s.allow req ⟨0⟩ now id
      callSave (machine B)
      .ignore (callAdd (machine B) entry) : Act (World (Machine κ)) String Unit)
    (allow (machine B) ⟨0⟩ req now id) := by
  refine alike_onStore.leaves_bind fun entry => ?_
  refine (alike_refl (callSave (machine B))).mapErr_right.leaves_bind fun _ => ?_
  exact leaves_bind_right leaves_ignore fun _ _ => rfl

theorem allowCli_leaves {parseNet : String → Option IpNet} {inRange : DateTime → Bool} {target note : String}
    {ttlSecs : Option UInt64} {id : EntryId} {net : IpNet} {expiresAt : Option DateTime} (h : Loaded w)
    (hnet : parseNet target = some net) (hexpiry : expiry inRange now ttlSecs = .ok expiresAt) :
    (allowCli B parseNet inRange target note ttlSecs now id w).2 =
      (allow (machine B) ⟨0⟩ ⟨net, note, expiresAt⟩ now id w).2 := by
  unfold allowCli
  rw [hnet]
  show ((lift (.ok net) >>= _) w).2 = _
  rw [lift_bind]
  refine loadStore_leaves h ?_
  show ((lift (expiry inRange now ttlSecs) >>= _) w).2 = _
  rw [hexpiry, lift_bind]
  exact allow_leaves w

/-- A duration that is out of range stops the command when it has read the state file. -/
theorem allowCli_stopped {parseNet : String → Option IpNet} {inRange : DateTime → Bool} {target note e : String}
    {ttlSecs : Option UInt64} {id : EntryId} {net : IpNet} (h : Loaded w) (hnet : parseNet target = some net)
    (hexpiry : expiry inRange now ttlSecs = .error e) :
    (allowCli B parseNet inRange target note ttlSecs now id w).2 = w := by
  unfold allowCli
  rw [hnet]
  show ((lift (.ok net) >>= _) w).2 = _
  rw [lift_bind]
  refine loadStore_leaves h ?_
  show ((lift (expiry inRange now ttlSecs) >>= _) w).2 = _
  rw [hexpiry]
  rfl

theorem revoke_leaves {net : IpNet} : Leaves
    (do
      let removed ← onStore fun s => s.revokeByTarget net
      .onlyIf removed do
        callSave (machine B)
        .ignore (callRemove (machine B) net) : Act (World (Machine κ)) String Unit)
    (revoke (machine B) (.target net)) := by
  have hrest : Leaves
      ((onStore fun s => s.revokeByTarget net) >>= fun removed => .onlyIf removed (callSave (machine B) >>= fun _ =>
        .ignore (callRemove (machine B) net)) : Act (World (Machine κ)) String Unit)
      ((onStore fun s => s.revokeByTarget net) >>= fun removed => rejectIf (!removed) entryNotFound >>= fun _ =>
        saveStore (machine B) >>= fun _ => .mapErr nftFailure (callRemove (machine B) net)) := by
    refine alike_onStore.leaves_bind fun removed => ?_
    cases removed with
    | false => exact fun _ => rfl
    | true => exact (alike_refl (callSave (machine B))).mapErr_right.leaves_bind fun _ => leaves_ignore
  exact fun w => hrest w

theorem revokeCli_leaves {parseNet : String → Option IpNet} {target : String} {net : IpNet} (h : Loaded w)
    (hnet : parseNet target = some net) :
    (revokeCli B parseNet target w).2 = (revoke (machine B) (.target net) w).2 := by
  unfold revokeCli
  rw [hnet]
  show ((lift (.ok net) >>= _) w).2 = _
  rw [lift_bind]
  exact loadStore_leaves h (revoke_leaves w)

/-! ### Forwards -/

theorem applyForwards_leaves {env : ForwardRule → HostEnv} : Leaves
    (.ignore (applyNow (machine B) N env) : Act (World (Machine κ)) String Unit) (applyForwards (machine B) N env) :=
  leaves_bind_right (n := mapErr nftFailure (applyNow (machine B) N env)) (fun _ => rfl) fun _ _ => rfl

theorem applyForwards_alike {env : ForwardRule → HostEnv} : Alike
    (.discard (applyNow (machine B) N env) : Act (World (Machine κ)) String Unit)
    (applyForwards (machine B) N env) where
  leaves := applyForwards_leaves
  value w := by
    have hvalue : wp (applyForwards (machine B) N env)
        (fun r _ => r.toOption = ((applyNow (machine B) N env w).1.map fun _ => ()).toOption) w := by
      unfold applyForwards
      rw [wp_bind, wp_mapErr]
      unfold wp
      cases (applyNow (machine B) N env w).1 <;> rfl
    exact hvalue.symm

theorem removeForward_leaves {env : ForwardRule → HostEnv} {id : ForwardId} : Leaves
    (do
      let removed ← onStore fun s => s.removeForward id
      .onlyIf removed do
        callSave (machine B)
        .ignore (applyNow (machine B) N env) : Act (World (Machine κ)) String Unit)
    (removeForward (machine B) N env id) := by
  refine alike_onStore.leaves_bind fun removed => ?_
  cases removed with
  | false => exact fun _ => rfl
  | true => exact (alike_refl (callSave (machine B))).mapErr_right.leaves_bind fun _ => applyForwards_leaves

theorem forwardRmCli_leaves {parseUuid : String → Option ForwardId} {env : ForwardRule → HostEnv} {arg : String}
    {id : ForwardId} (h : Loaded w) (hid : parseUuid (Text.trim arg) = some id) :
    (forwardRmCli B N parseUuid env arg w).2 = (removeForward (machine B) N env id w).2 := by
  unfold forwardRmCli
  rw [hid]
  show ((lift (.ok id) >>= _) w).2 = _
  rw [lift_bind]
  exact loadStore_leaves h (removeForward_leaves w)

/-- The host of a request from the console has no blanks around it. -/
theorem requestOf_trimmed {args : ForwardArgs} {req : AddForwardRequest} (h : requestOf args = .ok req) :
    Text.trim req.destHost = req.destHost := by
  unfold requestOf at h
  obtain ⟨listen, -, h⟩ := Except.bind_eq_ok.mp h
  obtain ⟨⟨host, dport⟩, -, h⟩ := Except.bind_eq_ok.mp h
  obtain ⟨destPort, -, h⟩ := Except.bind_eq_ok.mp h
  obtain ⟨proto, -, h⟩ := Except.bind_eq_ok.mp h
  obtain ⟨source, -, h⟩ := Except.bind_eq_ok.mp h
  cases h
  unfold Text.trim
  rw [String.toList_ofList, Text.trimChars_trimChars]

theorem toOption_eq_of_isOk {ε ε' : Type} {x : Except ε Unit} {y : Except ε' Unit} (h : x.isOk = y.isOk) :
    x.toOption = y.toOption := by
  cases x with
  | error e =>
    cases y with
    | error e' => rfl
    | ok u => cases h
  | ok u =>
    cases y with
    | error e' => cases h
    | ok u' => rfl

/-- On such a host the checks of the two are the same ones. -/
theorem checkRequest_toOption (a : DnatAdapter) (conf : Except String Unit) (d : Option String) {args : ForwardArgs}
    {req : AddForwardRequest} (h : requestOf args = .ok req) :
    (checkRequest a conf d req).toOption = (checkForwardRequest a conf d req).toOption := by
  have hsame : ({ req with destHost := Text.trim req.destHost } : AddForwardRequest) = req := by
    rw [requestOf_trimmed h]
  have hcheck : (checkRequest a conf d { req with destHost := Text.trim req.destHost }).isOk = passes a conf d req :=
    checkRequest_isOk
  rw [hsame] at hcheck
  exact toOption_eq_of_isOk (hcheck.trans checkForwardRequest_isOk.symm)

theorem addForward_leaves {a : DnatAdapter} {conf : Except String Unit} {d : Option String}
    {env : ForwardRule → HostEnv} {args : ForwardArgs} {id : ForwardId} {req : AddForwardRequest}
    (hreq : requestOf args = .ok req) (h : Loaded w) : (forwardAddCli B N a conf d env args now id w).2 =
      (addForward (machine B) N a ⟨d, conf, d, env⟩ ⟨0⟩ req now id w).2 := by
  have hcheck := checkRequest_toOption a conf d hreq
  have haccept : acceptForward a conf d args = (checkRequest a conf d req).map fun _ => req := by
    unfold acceptForward
    rw [hreq]
    show (checkRequest a conf d req >>= fun _ => .ok req) = _
    cases checkRequest a conf d req with
    | error e => rfl
    | ok => rfl
  unfold forwardAddCli addForward
  rw [haccept]
  -- Both sides check the same request, so they refuse it together.
  cases hcli : checkRequest a conf d req with
  | error e =>
    cases hremote : checkForwardRequest a conf d req with
    | error e' => rfl
    | ok =>
      rw [hcli, hremote] at hcheck
      cases hcheck
  | ok =>
    cases hremote : checkForwardRequest a conf d req with
    | error e' =>
      rw [hcli, hremote] at hcheck
      cases hcheck
    | ok =>
      -- Only the order of the pass and the view differs, and the view changes nothing.
      have hrest : Leaves
          (onStore (fun s => s.addForward req ⟨0⟩ now id) >>= fun rule => callSave (machine B) >>= fun _ =>
            .ignore (applyNow (machine B) N env) >>= fun _ => pure rule : Act (World (Machine κ)) String ForwardRule)
          (onStore (fun s => s.addForward req ⟨0⟩ now id) >>= fun rule => saveStore (machine B) >>= fun _ =>
            applyForwards (machine B) N env >>= fun _ => viewForward rule) := by
        refine alike_onStore.leaves_bind fun rule => ?_
        refine (alike_refl (callSave (machine B))).mapErr_right.leaves_bind fun _ => ?_
        refine leaves_bind_right (fun w => ?_) fun _ _ => rfl
        exact applyForwards_leaves w
      show ((lift (.ok req) >>= _) w).2 = _
      rw [lift_bind]
      exact loadStore_leaves h (hrest w)

/-! ### Exposure -/

/-- What a save is to leave. -/
def Saves {ε γ : Type} (H : Host (Machine κ)) (s : State) (save : Act (World (Machine κ)) ε γ)
    (w₁ : World (Machine κ)) : Prop :=
  wp save (fun r w' => w'.accepted = w₁.accepted ∧ w'.host = (H.save s w₁.host).2 ∧
    r.isOk = (H.save s w₁.host).1.isOk) w₁

/-- The ladder for a ruleset that is wanted now; the setting is saved where it is not refused. -/
def switching (H : Host (Machine κ)) (want : RulesetConfig) (refused : Bool × Bool → Bool) (w : World (Machine κ)) :
    Closing (Machine κ) :=
  match ladder H want w.store.entries w.host with
  | (none, k) => ⟨w.accepted, k, false⟩
  | (some c, k) => ⟨candidate want c.1 c.2, k, !refused c⟩

/-- The steps behind the checks: a rebuild, and a save or nothing. -/
theorem wp_switching {H : Host (Machine κ)} {want : RulesetConfig} {refused : Bool × Bool → Bool} {ε γ : Type}
    {first : Act (World (Machine κ)) ε Applied} {rest : Applied → Act (World (Machine κ)) ε γ} {s : State}
    {w₀ : World (Machine κ)} (hacc : w₀.accepted = w.accepted)
    (hfirst : wp first (Rebuilt want w₀ (ladder H want w.store.entries w.host)) w₀)
    (hrefused : ∀ c reason w₁, refused c = true → ∃ e, rest (report want c reason) w₁ = (.error e, w₁))
    (hsaved : ∀ c reason w₁, refused c = false → w₁.store = w₀.store → Saves H s (rest (report want c reason)) w₁) :
    wp (first >>= rest) (fun r w' => Ends H s (switching H want refused w) r.isOk w') w₀ := by
  rw [wp_bind]
  refine wp_mono hfirst fun r w₁ h₁ => ?_
  cases hladder : ladder H want w.store.entries w.host with
  | mk c k =>
    rw [hladder] at h₁
    cases c with
    | none =>
      have hend : switching H want refused w = ⟨w.accepted, k, false⟩ := by
        unfold switching
        rw [hladder]
      obtain ⟨hkept, herr⟩ := h₁.refused rfl
      cases r with
      | ok applied => cases herr
      | error e =>
        rw [hend]
        exact ⟨hkept.trans hacc, h₁.host, rfl⟩
    | some c =>
      have hend : switching H want refused w = ⟨candidate want c.1 c.2, k, !refused c⟩ := by
        unfold switching
        rw [hladder]
      obtain ⟨htaken, reason, rfl⟩ := h₁.taken c rfl
      have hhost : w₁.host = k := h₁.host
      rw [andThen_ok, hend]
      -- The gate may be missing in what was accepted; then the setting is not saved.
      cases hc : refused c with
      | true =>
        obtain ⟨e, hrun⟩ := hrefused c reason w₁ hc
        unfold wp
        rw [hrun]
        exact ⟨htaken, hhost, rfl⟩
      | false =>
        refine wp_mono (hsaved c reason w₁ hc h₁.store) ?_
        rintro r₂ w₂ ⟨hkept, hhost₂, hok⟩
        rw [hhost] at hhost₂ hok
        exact ⟨hkept.trans htaken, hhost₂, hok⟩

theorem commit_saves {H : Host (Machine κ)} {f : State → State} {s : State} {w₁ : World (Machine κ)}
    (hs : f w₁.store = s) : Saves H s (commit H cfg f) w₁ := by
  unfold Saves commit
  simp only [wp_bind, onStore, wp_update, andThen_ok, saveStore, wp_mapErr, hs]
  refine wp_mono (callSave_saves (s := s) rfl) ?_
  rintro r w₂ ⟨hacc, hhost, hok⟩
  cases r with
  | error e => exact ⟨hacc, hhost, hok⟩
  | ok _ => exact ⟨hacc, hhost, hok⟩

/-- The kernel is in the end without the gate that is wanted. -/
def gateMissing (want : RulesetConfig) (c : Bool × Bool) : Bool := want.forwardAllowlistOnly && !c.2

/-- Where the gate of forwards ends that is switched. -/
def gating (H : Host (Machine κ)) (cfg : AgentConfig) (on : Bool) (w : World (Machine κ)) : Closing (Machine κ) :=
  switching H (cfg.rulesetWith (w.store.rulesetFlags.withForward on))
    (gateMissing (cfg.rulesetWith (w.store.rulesetFlags.withForward on))) w

/-- Where SSH ends that is opened. -/
def opening (H : Host (Machine κ)) (cfg : AgentConfig) (w : World (Machine κ)) : Closing (Machine κ) :=
  switching H (cfg.rulesetWith (w.store.rulesetFlags.withSsh false)) (fun _ => false) w

section Switching

variable {H : Host (Machine κ)} {ε γ : Type} {s : State} {w₀ : World (Machine κ)} {on : Bool} {refuse : String → ε}
variable {first : Act (World (Machine κ)) ε Applied} {save : Act (World (Machine κ)) ε γ}
variable {undo : String → Act (World (Machine κ)) ε γ}

theorem wp_gating (hacc : w₀.accepted = w.accepted)
    (hfirst : wp first (Rebuilt (cfg.rulesetWith (w.store.rulesetFlags.withForward on)) w₀
      (ladder H (cfg.rulesetWith (w.store.rulesetFlags.withForward on)) w.store.entries w.host)) w₀)
    (hsave : ∀ w₁, w₁.store = w₀.store → Saves H s save w₁) :
    wp (do
      let applied ← first
      match applied.gate with
      | .rejected e => .fail (refuse e)
      | _ => save) (fun r w' => Ends H s (gating H cfg on w) r.isOk w') w₀ := by
  have hgate (want : RulesetConfig) (c : Bool × Bool) (reason : String) :
      (∃ e, (report want c reason).gate = .rejected e) ↔ gateMissing want c = true := by
    unfold gateMissing report
    cases want.forwardAllowlistOnly <;> cases c.2 <;> simp [gateState]
  refine wp_switching hacc hfirst (fun c reason w₁ hc => ?_) fun c reason w₁ hc hstore => ?_
  · obtain ⟨e, he⟩ := (hgate _ c reason).mpr hc
    simp only [he]
    exact ⟨_, rfl⟩
  · split
    · next e he =>
      rw [(hgate _ c reason).mp ⟨e, he⟩] at hc
      cases hc
    · exact hsave w₁ hstore

theorem wp_opening (hacc : w₀.accepted = w.accepted)
    (hfirst : wp first (Rebuilt (cfg.rulesetWith (w.store.rulesetFlags.withSsh false)) w₀
      (ladder H (cfg.rulesetWith (w.store.rulesetFlags.withSsh false)) w.store.entries w.host)) w₀)
    (hsave : ∀ w₁, w₁.store = w₀.store → Saves H s save w₁) :
    wp (do
      let applied ← first
      match applied.knock with
      | .rejected e => undo e
      | _ => save) (fun r w' => Ends H s (opening H cfg w) r.isOk w') w₀ := by
  refine wp_switching hacc hfirst (fun c reason w₁ hc => by cases hc) fun c reason w₁ _ hstore => ?_
  split
  · next e he =>
    -- no knock rules are wanted
    have hwant := (report_knock_rejected he).1
    rw [RulesetConfig.knock_of_open rfl] at hwant
    cases hwant
  · exact hsave w₁ hstore

end Switching

theorem forwardExposeCli_ends {on : Bool} (h : Loaded w) :
    wp (forwardExposeCli B cfg (!on) on) (fun r w' =>
      Ends (machine B) (w.store.setForwardAllowlistOnly on).2 (gating (machine B) cfg on w) r.isOk w') w := by
  have hmode : forwardMode (!on) on = .ok on := by cases on <;> rfl
  have hwritten : w.host.disk.written = w.store := h.symm
  simp only [forwardExposeCli, hmode, wp_bind, wp_lift, andThen_ok, loadStore, wp_modify, hwritten, onStore, wp_update,
    wp_get]
  rw [← wp_bind]
  exact wp_gating (w := w) rfl (applyRuleset_rebuilt _ _ _) fun _ hstore => callSave_saves hstore

theorem setForwardExposure_ends {on : Bool} :
    wp (setForwardExposure (machine B) cfg on) (fun r w' =>
      Ends (machine B) (w.store.setForwardAllowlistOnly on).2 (gating (machine B) cfg on w) r.isOk w') w := by
  simp only [setForwardExposure, wp_bind, wp_get, andThen_ok]
  rw [← wp_bind]
  exact wp_gating rfl (reapplyRuleset_rebuilt _ _ w) fun _ hstore => commit_saves (by rw [hstore])

theorem sshExposeCli_opens (h : Loaded w) : wp (sshExposeCli B cfg true false)
    (fun r w' => Ends (machine B) (w.store.setSshAllowlistOnly false).2 (opening (machine B) cfg w) r.isOk w') w := by
  have hwritten : w.host.disk.written = w.store := h.symm
  simp only [sshExposeCli, exposeMode, wp_bind, wp_lift, andThen_ok, loadStore, wp_modify, wp_get, hwritten]
  rw [if_neg Bool.false_ne_true]
  dsimp only
  rw [wp_bind, onStore, wp_update, andThen_ok, wp_bind, wp_get, andThen_ok]
  exact wp_opening (w := w) rfl (applyRuleset_rebuilt _ _ _) fun _ hstore => callSave_saves hstore

theorem setSshExposure_opens : wp (setSshExposure (machine B) cfg false now)
    (fun r w' => Ends (machine B) (w.store.setSshAllowlistOnly false).2 (opening (machine B) cfg w) r.isOk w') w := by
  simp only [setSshExposure, wp_bind, wp_get, andThen_ok, rejectIf, Bool.false_and, onlyIf, Bool.false_eq_true,
    if_false, wp_pure]
  rw [← wp_bind]
  exact wp_opening rfl (reapplyRuleset_rebuilt _ _ w) fun _ hstore => commit_saves (by rw [hstore])

theorem Ends.same {H : Host (Machine κ)} {s : State} {e : Closing (Machine κ)} {ok ok' : Bool}
    {w₁ w₂ : World (Machine κ)} (h : Ends H s e ok w₁) (h' : Ends H s e ok' w₂) :
    w₁.host = w₂.host ∧ w₁.accepted = w₂.accepted :=
  ⟨h.host.trans h'.host.symm, h.accepted.trans h'.accepted.symm⟩

theorem forwardExpose_same (on : Bool) (h : Loaded w) :
    (forwardExposeCli B cfg (!on) on w).2.host = (setForwardExposure (machine B) cfg on w).2.host ∧
      (forwardExposeCli B cfg (!on) on w).2.accepted = (setForwardExposure (machine B) cfg on w).2.accepted := by
  exact Ends.same (e := gating (machine B) cfg on w) (forwardExposeCli_ends h) setForwardExposure_ends

/-- Closing SSH, on a list that admits somebody or with a public port in the way. -/
theorem closes_same (h : Loaded w) (hchecked : w.store.entries.any (fun e => !e.isExpired now) = true ∨
      (cfg.publicPortCoveringSsh w.store.rulesetFlags).isSome = true) :
    (sshExposeCli B cfg false true w).2.host = (setSshExposure (machine B) cfg true now w).2.host ∧
      (sshExposeCli B cfg false true w).2.accepted = (setSshExposure (machine B) cfg true now w).2.accepted := by
  have hports : cfg.publicPortCoveringSsh (w.store.rulesetFlags.withSsh true) =
      cfg.publicPortCoveringSsh w.store.rulesetFlags := rfl
  cases hcover : cfg.publicPortCoveringSsh w.store.rulesetFlags with
  | some p =>
    obtain ⟨e, hremote⟩ := @setSshExposure_stopped κ cfg w now (machine B) (.inr (by rw [hcover]; rfl))
    rw [sshExposeCli_covered h hcover, hremote]
    exact ⟨rfl, rfl⟩
  | none =>
    rw [hcover] at hchecked
    have hlive := hchecked.resolve_right Bool.false_ne_true
    exact (sshExposeCli_ends h hcover).same (setSshExposure_ends hlive (hports.trans hcover))

/-! ### Rules of dnat -/

section Dnat

variable {E : Dnat.Base64Engine} {reads : DnatReads} {site : Site (Machine κ)} {listen iface : String} {ports : PortRange}
variable {id : ForwardId}

/-- The key of the rules of dnat for the ports and the interface. -/
def keyOf (listen : PortRange) (iface : String) : String := Dnat.portSpec listen ++ ">" ++ iface ++ ">"

/-- The key is that of the ports and the interface. -/
theorem prefixKey_eq_keyOf {r : DnatRule} : r.prefixKey = keyOf ports iface ↔ r.listen = ports ∧ r.iface = iface := by
  have hkey : keyOf ports iface = (⟨ports, iface, "", ports, .auto⟩ : DnatRule).prefixKey := rfl
  rw [hkey, Dnat.prefixKey_eq_iff]

/-- The console finds the rule that the key is for. -/
theorem findDnatRule_toOption {lookup : Except String Unit} {a : DnatAdapter}
    (hports : parsePortRange listen.toList = .ok ports) : (findDnatRule lookup a listen iface).toOption =
      if lookup.isOk then a.findRuleByPrefix (keyOf ports iface) else none := by
  have hfind : (a.rules.find? fun r => r.listen = ports && r.iface = iface) =
      a.findRuleByPrefix (keyOf ports iface) := by
    unfold DnatAdapter.findRuleByPrefix
    refine congrArg (fun p => a.rules.find? p) (funext fun r => ?_)
    rw [← Bool.decide_and]
    exact decide_eq_decide.mpr prefixKey_eq_keyOf.symm
  unfold findDnatRule
  rw [hports, ← hfind]
  show (orError _ ((if lookup.isOk then a.rules else []).find? fun r =>
    r.listen = ports && r.iface = iface)).toOption = _
  split
  · cases a.rules.find? fun r => r.listen = ports && r.iface = iface <;> rfl
  · rfl

theorem findDnatRule_unread {lookup : Except String Unit} {a : DnatAdapter} {e : String}
    (hports : parsePortRange listen.toList = .error e) : findDnatRule lookup a listen iface = .error e := by
  unfold findDnatRule
  rw [hports]
  rfl

/-- What cannot be found is not removed. -/
theorem dnatRmCli_unfound {e : String} (h : findDnatRule reads.lookup site.dnat listen iface = .error e) :
    (dnatRmCli reads listen iface site).2 = site := by
  unfold dnatRmCli
  show ((lift (findDnatRule reads.lookup site.dnat listen iface) >>= _ : Act (Site (Machine κ)) String Unit) site).2 = _
  rw [h]
  rfl

/-- Nor is it taken over. -/
theorem dnatMigrateCli_unfound {e : String} (h : findDnatRule reads.lookup site.dnat listen iface = .error e) :
    (dnatMigrateCli B N reads listen iface now id site).2 = site := by
  unfold dnatMigrateCli
  show ((lift (findDnatRule reads.lookup site.dnat listen iface) >>= _ : Act (Site (Machine κ)) String Unit) site).2 = _
  rw [h]
  rfl

/-- Without a rule for the key the file stays as it is. -/
theorem removePrefix_none {answers : ConfAnswers} {key conf : String}
    (h : ∀ r ∈ Dnat.parseConf conf, r.prefixKey ≠ key) : (removePrefix answers key conf).2 = conf := by
  have hnone : (Dnat.removeRuleLines conf key).2 = false := by
    rw [← Bool.not_eq_true, Dnat.removeRuleLines_removed]
    rintro ⟨r, hr, hkey⟩
    exact h r hr hkey
  cases hlock : answers.lock with
  | error e =>
    unfold removePrefix
    rw [hlock]
  | ok =>
    cases hread : answers.read with
    | error e => rw [removePrefix_unreadable hlock hread]
    | ok =>
      unfold removePrefix
      simp only [hlock, hread, Except.isOk, Except.toBool, if_true, hnone, Bool.false_eq_true, if_false]

theorem key_decoded (hE : ∀ bytes, E.decode (E.encode bytes) = some bytes) (key : String)
    (hpresent : site.dnat.present = true) :
    dnatPrefixFromKey (Dnat.decodeKey E) site.dnat (Dnat.encodeKey E key) = .ok key := by
  unfold dnatPrefixFromKey
  rw [hpresent, Dnat.decodeKey_encodeKey hE]
  rfl

theorem dnatRm_same (hE : ∀ bytes, E.decode (E.encode bytes) = some bytes)
    (hports : parsePortRange listen.toList = .ok ports) (hpresent : site.dnat.present = true)
    (hlookup : reads.lookup.isOk = true) : (dnatRmCli reads listen iface site).2 =
      (removeDnatForward (Dnat.decodeKey E) reads (Dnat.encodeKey E (keyOf ports iface)) site).2 := by
  have hremote : (removeDnatForward (Dnat.decodeKey E) reads (Dnat.encodeKey E (keyOf ports iface))
      site).2 = (callRemovePrefix reads.conf (keyOf ports iface) site : Except String Bool × Site (Machine κ)).2 := by
    have hwp : wp (removeDnatForward (Dnat.decodeKey E) reads (Dnat.encodeKey E (keyOf ports iface)))
        (fun _ site' => site' =
          (callRemovePrefix reads.conf (keyOf ports iface) site : Except String Bool × Site (Machine κ)).2) site := by
      simp only [removeDnatForward, wp_bind, wp_get, andThen_ok, wp_lift, key_decoded hE _ hpresent, wp_mapErr]
      unfold wp
      cases (callRemovePrefix reads.conf (keyOf ports iface) site : Except String Bool × Site (Machine κ)).1 with
      | error e => rfl
      | ok removed => cases removed <;> rfl
    exact hwp
  have hfind : (findDnatRule reads.lookup site.dnat listen iface).toOption =
      if reads.lookup.isOk then site.dnat.findRuleByPrefix (keyOf ports iface) else none := findDnatRule_toOption hports
  rw [hlookup, if_pos rfl] at hfind
  rw [hremote]
  -- The command ends where it finds no rule, and the request goes on to a removal that finds none either.
  cases hrule : findDnatRule reads.lookup site.dnat listen iface with
  | error e =>
    have hcli := dnatRmCli_unfound hrule
    rw [hrule] at hfind
    have hnone : ∀ r ∈ Dnat.parseConf site.dnat.conf, r.prefixKey ≠ keyOf ports iface := by
      intro r hr hkey
      have hsearch := List.find?_eq_none.mp hfind.symm r hr
      exact hsearch (decide_eq_true hkey)
    rw [hcli]
    show site = { site with dnat := { site.dnat with conf := _ } }
    rw [removePrefix_none hnone]
  | ok rule =>
    rw [hrule] at hfind
    have hkey := (DnatAdapter.findRuleByPrefix_eq_some hfind.symm).2
    unfold dnatRmCli
    show ((lift (findDnatRule reads.lookup site.dnat listen iface) >>= _ :
      Act (Site (Machine κ)) String Unit) site).2 = _
    rw [hrule, lift_bind, hkey]
    rfl

/-- What the console and the request do with a rule that has passed the checks. -/
theorem takeOver_leaves {req : AddForwardRequest} {key : String} : Leaves
    (do
      let newRule ← Site.onWorld (onStore fun s => s.addForward req ⟨0⟩ now id)
      Site.onWorld (callSave (machine B))
      Site.onWorld (.mapErr (fun _ => "native 落地失败（已写存储，未撤 dnat）")
        (.discard (applyNow (machine B) N reads.pass)))
      let site ← .get
      if (site.world.store.resolvedIp newRule.id).isNone then do
        .mapErr ApiError.message (undoMigration (machine B) N reads newRule.id)
        .fail "native 规则未能解析/生效（如域名暂时解析失败），已保留原 dnat，请稍后重试"
      else
        .discard (.mapErr (fun _ => "native 已生效，但撤原 dnat 规则失败（dnat 仍在服务，可重试或手动 dnat-rm）")
          (callRemovePrefix reads.conf key)) : Act (Site (Machine κ)) String Unit)
    (do
      let newRule ← Site.onWorld (onStore fun s => s.addForward req ⟨0⟩ now id)
      Site.onWorld (saveStore (machine B))
      Site.onWorld (applyForwards (machine B) N reads.pass)
      finishMigration (machine B) N reads key newRule : Act (Site (Machine κ)) ApiError ForwardView) := by
  have hsave : Alike (Site.onWorld (callSave (machine B)) : Act (Site (Machine κ)) String Unit)
      (Site.onWorld (saveStore (machine B))) := (alike_refl (callSave (machine B))).mapErr_right.zoom
  refine alike_onStore.zoom.leaves_bind fun newRule => hsave.leaves_bind fun _ => ?_
  refine (applyForwards_alike.mapErr_left.zoom).leaves_bind fun _ => ?_
  have hget : Alike (.get : Act (Site (Machine κ)) String (Site (Machine κ))) (.get : Act _ ApiError _) :=
    ⟨fun _ => rfl, fun _ => rfl⟩
  refine hget.leaves_bind fun site => ?_
  -- A rule that has not come into force is taken back by both; else both remove it from the file of dnat.
  split
  · exact (alike_refl (undoMigration (machine B) N reads newRule.id)).mapErr_left.leaves_bind fun _ _ => rfl
  · exact leaves_bind_right (n := mapErr dnatNotRemoved (callRemovePrefix reads.conf key)) (fun _ => rfl)
      fun _ _ => rfl

/-- Taking a rule over that can also be requested. -/
theorem dnatMigrate_same (hE : ∀ bytes, E.decode (E.encode bytes) = some bytes)
    (hports : parsePortRange listen.toList = .ok ports) (hload : Loaded site.world)
    (hpresent : site.dnat.present = true)
    (hinput : ∀ rule ∈ (findDnatRule reads.lookup site.dnat listen iface).toOption,
      (validateForwardInput (some rule.iface) rule.remoteHost).isOk = true) :
    (dnatMigrateCli B N reads listen iface now id site).2 = (migrateDnatForward (machine B) N (Dnat.decodeKey E)
      reads ⟨0⟩ (Dnat.encodeKey E (keyOf ports iface)) now id site).2 := by
  have hfind : (findDnatRule reads.lookup site.dnat listen iface).toOption =
      if reads.lookup.isOk then site.dnat.findRuleByPrefix (keyOf ports iface) else none := findDnatRule_toOption hports
  unfold dnatMigrateCli migrateDnatForward
  show ((lift (findDnatRule reads.lookup site.dnat listen iface) >>= _ : Act (Site (Machine κ)) String Unit) site).2 =
    ((lift (migratable (Dnat.decodeKey E) reads site (Dnat.encodeKey E (keyOf ports iface))) >>= _ :
      Act (Site (Machine κ)) ApiError ForwardView) site).2
  unfold migratable
  have hkeyed {γ : Type} (f : String → Except ApiError γ) :
      (Except.ok (keyOf ports iface) >>= f) = f (keyOf ports iface) := rfl
  rw [key_decoded hE _ hpresent, hkeyed, ← hfind]
  -- The same checks in the same order; only the messages differ.
  cases hrule : findDnatRule reads.lookup site.dnat listen iface with
  | error e => rfl
  | ok rule =>
    rw [hrule] at hfind hinput
    have hok := hinput rule rfl
    have hkey : rule.prefixKey = keyOf ports iface := by
      split at hfind
      · exact (DnatAdapter.findRuleByPrefix_eq_some hfind.symm).2
      · cases hfind
    show ((lift ((validatePorts rule.listen rule.destPort).mapError _) >>= _ :
        Act (Site (Machine κ)) String Unit) site).2 =
      ((lift ((validatePorts rule.listen rule.destPort).mapError dnatPortsUnsupported >>= fun _ =>
        validateForwardInput (some rule.iface) rule.remoteHost >>= fun _ =>
          if clobbers site.world.store reads.defaultIface rule then .error migrationClash
          else .ok (keyOf ports iface, rule)) >>= _ : Act (Site (Machine κ)) ApiError ForwardView) site).2
    cases validatePorts rule.listen rule.destPort with
    | error e => rfl
    | ok =>
      cases hvalid : validateForwardInput (some rule.iface) rule.remoteHost with
      | error e =>
        rw [hvalid] at hok
        cases hok
      | ok =>
        show ((lift (.ok ()) >>= _ : Act (Site (Machine κ)) String Unit) site).2 = _
        rw [lift_bind]
        refine onWorld_loadStore_leaves hload ?_
        show ((.onlyIf (clobbers site.world.store reads.defaultIface rule) (.fail _) >>= _ :
          Act (Site (Machine κ)) String Unit) site).2 = _
        cases clobbers site.world.store reads.defaultIface rule with
        | true => rfl
        | false =>
          rw [← hkey]
          exact takeOver_leaves site

end Dnat

end Ends

end Ipgate.Cli
