-- SUMMARY: Requests whose save fails: when memory and the state file stay in agreement over any sequence of them.
import Ipgate.Lib.Lts
import Ipgate.Agent.Api.Disk

/-!
# Memory and the state file

Every request that changes the store does so in memory first, and then saves. When the save
fails the request returns an error, with the change still in memory. So memory and file part
exactly when a change cannot be saved.
-/

namespace Ipgate.Saves

open Net Act

/-! ## What is compared -/

structure View where
  entries : List Entry
  devices : List Device
  forwards : List ForwardRule
  /-- The settings, with the public ports. -/
  flags : RulesetFlags
  deriving DecidableEq

def view (s : State) : View := ⟨s.entries, s.devices, s.forwards, s.rulesetFlags⟩

/-! ## Requests -/

inductive Request where
  | allow (who : DeviceId) (req : AllowRequest) (now : DateTime) (id : EntryId)
  | revoke (req : RevokeRequest)
  | addForward (a : DnatAdapter) (reads : ForwardReads) (who : DeviceId) (req : AddForwardRequest) (now : DateTime)
      (id : ForwardId)
  | updateForward (a : DnatAdapter) (reads : ForwardReads) (id : ForwardId) (req : AddForwardRequest)
  | removeForward (env : ForwardRule → HostEnv) (id : ForwardId)
  | setSshExposure (on : Bool) (now : DateTime)
  | setForwardExposure (on : Bool)
  | addPublicPort (req : PublicPortRequest)
  | removePublicPort (proto : ForwardProto) (range : PortRange)
  | revokeDevice (id : DeviceId)

section System

variable {κ : Type} (B : NftBackend κ) (N : NatBackend κ) (cfg : AgentConfig)

def Request.run : Request → Act (World (Machine κ)) ApiError Unit
  | .allow who req now id => .discard (Ipgate.allow (machine B) who req now id)
  | .revoke req => Ipgate.revoke (machine B) req
  | .addForward a reads who req now id =>
    .discard (Ipgate.addForward (machine B) (machineNat N) a reads who req now id)
  | .updateForward a reads id req => .discard (Ipgate.updateForward (machine B) (machineNat N) a reads id req)
  | .removeForward env id => Ipgate.removeForward (machine B) (machineNat N) env id
  | .setSshExposure on now => .discard (Ipgate.setSshExposure (machine B) cfg on now)
  | .setForwardExposure on => .discard (Ipgate.setForwardExposure (machine B) cfg on)
  | .addPublicPort req => .discard (Ipgate.addPublicPort (machine B) cfg req)
  | .removePublicPort proto range => .discard (Ipgate.removePublicPort (machine B) cfg proto range)
  | .revokeDevice id => Ipgate.revokeDevice (machine B) id

def Request.after (q : Request) (w : World (Machine κ)) : World (Machine κ) := (q.run B N cfg w).2

/-- Every request is possible in every state. -/
def step (w : World (Machine κ)) (q : Request) : Option (World (Machine κ)) := some (q.after B N cfg w)

/-- The request has returned an error because a save failed. No other error is internal. -/
def Request.SaveFailed (q : Request) (w : World (Machine κ)) : Prop := ∃ e, (q.run B N cfg w).1 = .error (internal e)

/-- Memory and the state file agree. -/
def InSync (w : World (Machine κ)) : Prop := view w.host.disk.written = view w.store

instance (w : World (Machine κ)) : Decidable (InSync w) := inferInstanceAs (Decidable (_ = _))

/-! ## Later on -/

/-- What the daemon may do after a request. -/
inductive Later where
  | request (q : Request)
  | tick (O : HashOrder) (now : DateTime)
  | rebuild
  /-- A round of the resolve loop, with what the loop remembers. -/
  | resolve (hash : List ResolvedForward → UInt64) (env : ForwardRule → HostEnv) (lastHash : Option UInt64)
  /-- The daemon starts again and loads the state file. The rebuild and the pass of a start are steps
  of their own. -/
  | restart

def Later.run (w : World (Machine κ)) : Later → World (Machine κ)
  | .request q => q.after B N cfg w
  | .tick O now => (reconcileTick (machine B) cfg O now w).2
  | .rebuild => (Ipgate.rebuild (machine B) cfg w).2
  | .resolve hash env lastHash => (resolveTick (machine B) (machineNat N) hash env lastHash w).2
  | .restart => { w with store := w.host.disk.written }

/-- The kernel after a sequence of these. -/
def kernelAfter (w : World (Machine κ)) (es : List Later) : κ := (es.foldl (Later.run B N cfg) w).host.kernel

/-- The request leaves memory and file in agreement, and when its save fails it has changed
nothing in memory and does nothing to the kernel later on. -/
structure Kept (w : World (Machine κ)) (q : Request) : Prop where
  unchanged : q.SaveFailed B N cfg w → view (q.after B N cfg w).store = view w.store
  inSync : InSync (q.after B N cfg w)
  /-- From behind the request, the kernel comes to what it comes to with the store from before it. -/
  noEffect : q.SaveFailed B N cfg w → ∀ es,
    kernelAfter B N cfg (q.after B N cfg w) es =
      kernelAfter B N cfg { q.after B N cfg w with store := w.store } es

/-! ## The store a request is to save -/

/-- The kernel takes a ruleset with the settings. -/
def taken (w : World (Machine κ)) (flags : RulesetFlags) : Option Applied :=
  (reapplyRuleset (machine B) cfg flags w.store.entries w).1.toOption

/-- The store that the request comes to save, if it passes its checks and the kernel takes what
it has to take before. -/
def Request.toStore (w : World (Machine κ)) : Request → Option State
  | .allow who req now id => some (w.store.allow req who now id).2
  | .revoke req => do
    let target ← revokeTarget w.store req
    if (w.store.revokeByTarget target).1 then some (w.store.revokeByTarget target).2 else none
  | .addForward a reads who req now id =>
    if (checkForwardRequest a reads.dnatConf reads.dnatIface req).isOk then some (w.store.addForward req who now id).2
    else none
  | .updateForward a reads id req =>
    if (checkForwardRequest a reads.dnatConf reads.dnatIface req).isOk ∧
        Forwarding.overlapsOther w.store reads.otherIface id req = false then
      (w.store.updateForward id req).map Prod.snd
    else none
  | .removeForward _ id => if (w.store.removeForward id).1 then some (w.store.removeForward id).2 else none
  | .setSshExposure on now =>
    let flags := w.store.rulesetFlags.withSsh on
    if on = true ∧ ((w.store.entries.any fun e => !e.isExpired now) = false ∨
        (cfg.publicPortCoveringSsh flags).isSome) then none
    else
      match taken B cfg w flags with
      | some ⟨_, .rejected _⟩ | none => none
      | some _ => some (w.store.setSshAllowlistOnly on).2
  | .setForwardExposure on =>
    match taken B cfg w (w.store.rulesetFlags.withForward on) with
    | some ⟨.rejected _, _⟩ | none => none
    | some _ => some (w.store.setForwardAllowlistOnly on).2
  | .addPublicPort req =>
    let note := Text.trim req.note
    let ports := w.store.publicPorts ++ [⟨req.proto, req.ports, note, false⟩]
    let flags := w.store.rulesetFlags.withPorts ports
    if req.ports.start = 0 ∨ req.ports.isValid = false then none
    else if w.store.publicPorts.any (isPort req.proto req.ports) then
      some (w.store.setPublicPorts (setNote req.proto req.ports note w.store.publicPorts))
    else if flags.sshAllowlistOnly ∧ cfg.coversSsh req.proto req.ports then none
    else (taken B cfg w flags).map fun _ => w.store.setPublicPorts ports
  | .removePublicPort proto range =>
    let ports := w.store.publicPorts.filter fun p => !isPort proto range p
    if ports.length = w.store.publicPorts.length then none
    else (taken B cfg w (w.store.rulesetFlags.withPorts ports)).map fun _ => w.store.setPublicPorts ports
  | .revokeDevice id => if (w.store.removeDevice id).1 then some (w.store.removeDevice id).2 else none

/-- The request has a change to save, and the disk refuses it. -/
def Request.Lost (w : World (Machine κ)) (q : Request) : Prop :=
  ∃ s ∈ q.toStore B cfg w, (w.host.disk.save s).1.isOk = false ∧ view s ≠ view w.store

instance (w : World (Machine κ)) (q : Request) : Decidable (q.Lost B cfg w) :=
  inferInstanceAs (Decidable (∃ s ∈ q.toStore B cfg w, _))

end System

/-! ## How a request ends -/

section Outcome

variable {κ α β : Type} {B : NftBackend κ} {N : NatBackend κ} {cfg : AgentConfig}
variable {w w' : World (Machine κ)} {s : State} {r : Except ApiError α} {o : Option State}

attribute [local simp] Request.toStore

/-- No save has made the request fail. -/
def NotInternal (r : Except ApiError α) : Prop := ∀ e, r ≠ .error (internal e)

theorem notInternal_ok {a : α} : NotInternal (.ok a) := nofun

theorem notInternal_error {err : ApiError} (h : err.code ≠ .internal) : NotInternal (.error err : Except ApiError α) := by
  intro e heq
  cases heq
  exact h rfl

/-- An error of another step is the same error. -/
theorem NotInternal.of_error {err : ApiError} (h : NotInternal (.error err : Except ApiError α)) :
    NotInternal (.error err : Except ApiError β) :=
  fun e heq => h e (congrArg Except.error (Except.error.inj heq))

theorem notInternal_mapError {r : Except String α} : NotInternal (r.mapError nftFailure) := by
  cases r with
  | ok a => exact notInternal_ok
  | error e => exact notInternal_error (by simp [nftFailure])

/-- The request ends before it comes to save. -/
structure Ends (w : World (Machine κ)) (r : Except ApiError α) (w' : World (Machine κ)) : Prop where
  store : view w'.store = view w.store
  disk : w'.host.disk = w.host.disk
  result : NotInternal r

/-- The request saves the store `s`: if it cannot, it stops there, with `s` in memory. -/
def Saved (d : Disk) (s : State) (r : Except ApiError α) (w' : World (Machine κ)) : Prop :=
  match (d.save s).1 with
  | .error e => r = .error (internal e) ∧ w'.store = s ∧ w'.host.disk.written = d.written
  | .ok () => NotInternal r ∧ view w'.store = view s ∧ InSync w'

def Outcome (w : World (Machine κ)) (o : Option State) (r : Except ApiError α) (w' : World (Machine κ)) : Prop :=
  match o with
  | none => Ends w r w'
  | some s => Saved w.host.disk s r w'

theorem outcome_discard (h : Outcome w o r w') : Outcome w o (r.map fun _ => ()) w' := by
  have hresult : NotInternal r → NotInternal (r.map fun _ => ()) := by
    intro hr e heq
    cases r with
    | ok a => cases heq
    | error err => exact hr.of_error e heq
  cases o with
  | none => exact ⟨h.store, h.disk, hresult h.result⟩
  | some s =>
    unfold Outcome Saved at h ⊢
    dsimp only at h ⊢
    split at h
    · obtain ⟨rfl, hrest⟩ := h
      exact ⟨rfl, hrest⟩
    · exact ⟨hresult h.1, h.2⟩

/-! ### After the save -/

/-- What is left of a request when its save has succeeded. -/
def Harmless (m : Act (World (Machine κ)) ApiError α) : Prop :=
  ∀ w, InSync w → wp m (fun r w' => InSync w' ∧ view w'.store = view w.store ∧ NotInternal r) w

theorem harmless_pure {a : α} : Harmless (pure a : Act (World (Machine κ)) ApiError α) :=
  fun _ h => ⟨h, rfl, notInternal_ok⟩

theorem harmless_bind {m : Act (World (Machine κ)) ApiError α} {f : α → Act (World (Machine κ)) ApiError β}
    (hm : Harmless m) (hf : ∀ a, Harmless (f a)) : Harmless (m >>= f) := by
  intro w h
  rw [wp_bind]
  apply wp_mono (hm w h)
  intro r w₁ h₁
  obtain ⟨hsync, hview, hresult⟩ := h₁
  cases r with
  | error e => exact ⟨hsync, hview, hresult.of_error⟩
  | ok a =>
    rw [andThen_ok]
    apply wp_mono (hf a w₁ hsync)
    intro r₂ w₂ h₂
    exact ⟨h₂.1, h₂.2.1.trans hview, h₂.2.2⟩

theorem harmless_read {f : World (Machine κ) → Act (World (Machine κ)) ApiError α} (hf : ∀ w, Harmless (f w)) :
    Harmless (.get >>= f) := fun w h => hf w w h

/-- A call of the kernel. -/
theorem harmless_call {m : Act (World (Machine κ)) String α}
    (hm : ∀ w, (m w).2.store = w.store ∧ (m w).2.host.disk = w.host.disk) : Harmless (mapErr nftFailure m) := by
  intro w h
  obtain ⟨hstore, hdisk⟩ := hm w
  refine ⟨?_, congrArg view hstore, notInternal_mapError⟩
  unfold InSync
  rw [mapErr_run, hstore, hdisk]
  exact h

theorem inSync_ignore_save (h : InSync w) : InSync (ignore (callSave (machine B)) w : Except ApiError Unit × _).2 := by
  unfold InSync ignore callSave machine Disk.save at *
  dsimp only
  split
  · rfl
  · rfl
  · exact h

theorem harmless_applyForwards {env : ForwardRule → HostEnv} :
    Harmless (applyForwards (machine B) (machineNat N) env) := by
  refine harmless_bind (fun w h => ?_) fun _ => harmless_pure
  rw [wp_mapErr]
  simp only [applyNow, commitForwards, wp_bind, wp_get, andThen_ok]
  have hinstall : wp (installNat (machineNat N) (resolveAll env w.store).resolved)
      (fun _ w' => w'.store = w.store ∧ w'.host.disk = w.host.disk) w := by
    unfold installNat wp
    dsimp only
    split
    · exact ⟨rfl, rfl⟩
    · exact ⟨rfl, rfl⟩
  apply wp_mono hinstall
  intro r w₁ h₁
  obtain ⟨hstore, hdisk⟩ := h₁
  have hsync : InSync w₁ := by
    unfold InSync
    rw [hstore, hdisk]
    exact h
  cases r with
  | error e => exact ⟨hsync, congrArg view hstore, notInternal_mapError⟩
  | ok =>
    have hview : view w₁.store = view w.store := congrArg view hstore
    exact ⟨inSync_ignore_save hsync, hview, notInternal_ok⟩

theorem harmless_viewForward {rule : ForwardRule} :
    Harmless (viewForward rule : Act (World (Machine κ)) ApiError ForwardView) :=
  harmless_read fun _ => harmless_pure

theorem saved_alone : wp (saveStore (machine B)) (Saved w.host.disk s) { w with store := s } := by
  have hsave : saveStore (machine B) { w with store := s } = ((w.host.disk.save s).1.mapError internal,
      { w with store := s, host := { w.host with disk := (w.host.disk.save s).2 } }) := rfl
  unfold wp
  rw [hsave]
  unfold Saved
  unfold Disk.save
  cases w.host.disk.answers with
  | nil => exact ⟨notInternal_ok, rfl, rfl⟩
  | cons a rest =>
    cases a with
    | error e => exact ⟨rfl, rfl, rfl⟩
    | ok => exact ⟨notInternal_ok, rfl, rfl⟩

/-- Save, and go on if it succeeds. -/
theorem saved_andThen {m : Act (World (Machine κ)) ApiError α} (hm : Harmless m) :
    wp (saveStore (machine B) >>= fun _ => m) (Saved w.host.disk s) { w with store := s } := by
  rw [wp_bind]
  apply wp_mono saved_alone
  intro r w₁ h₁
  unfold Saved at h₁ ⊢
  split at h₁
  · obtain ⟨rfl, hstore, hwritten⟩ := h₁
    exact ⟨rfl, hstore, hwritten⟩
  · obtain ⟨hresult, hview, hsync⟩ := h₁
    cases r with
    | error err => exact ⟨hresult.of_error, hview, hsync⟩
    | ok =>
      rw [andThen_ok]
      apply wp_mono (hm w₁ hsync)
      intro r₂ w₂ h₂
      exact ⟨h₂.2.2, h₂.2.1.trans hview, h₂.1⟩

/-! ### Before the save -/

/-- Rebuilding the table leaves memory and disk alone. -/
theorem wp_taken {flags : RulesetFlags} : wp (reapplyRuleset (machine B) cfg flags w.store.entries)
    (fun r w' => taken B cfg w flags = r.toOption ∧ w'.store = w.store ∧ w'.host.disk = w.host.disk ∧ NotInternal r) w := by
  have happly : ∀ c, Keeps (fun w : World (Machine κ) => w.host.disk) (callApply (machine B) c w.store.entries) := by
    intro c u
    have hdisk : ((machine B).apply c w.store.entries u.host).2.disk = u.host.disk := rfl
    unfold callApply
    split
    · next happly =>
      rw [happly] at hdisk
      exact hdisk
    · next happly =>
      rw [happly] at hdisk
      exact hdisk
  have hdisk : Keeps (fun w : World (Machine κ) => w.host.disk) (reapplyRuleset (machine B) cfg flags w.store.entries) :=
    keeps_bind (keeps_mapErr (keeps_applyRuleset happly)) fun _ => keeps_bind (fun _ => rfl) fun _ => keeps_pure
  refine ⟨rfl, wp_reapplyRuleset_store, hdisk w, ?_⟩
  have hresult : wp (reapplyRuleset (machine B) cfg flags w.store.entries) (fun r _ => NotInternal r) w := by
    simp only [reapplyRuleset, wp_bind, wp_mapErr]
    unfold wp
    cases (applyRuleset (machine B) (cfg.rulesetWith flags) w.store.entries w).1 with
    | ok applied => exact notInternal_ok
    | error e => exact notInternal_error (by simp [nftFailure])
  exact hresult

theorem saved_commit {f : State → State} : wp (commit (machine B) cfg f) (Saved w.host.disk (f w.store)) w := by
  have h : wp (saveStore (machine B) >>= fun _ => do let w ← .get; return buildSettings cfg w)
      (Saved w.host.disk (f w.store)) { w with store := f w.store } :=
    saved_andThen (harmless_read fun _ => harmless_pure)
  exact h

theorem saved_commitPorts {ports : List PublicPort} :
    wp (commitPorts (machine B) cfg ports) (Saved w.host.disk (w.store.setPublicPorts ports)) w := by
  have h : wp (saveStore (machine B) >>= fun _ => do let w ← .get; return listPublicPorts cfg w)
      (Saved w.host.disk (w.store.setPublicPorts ports)) { w with store := w.store.setPublicPorts ports } :=
    saved_andThen (harmless_read fun _ => harmless_pure)
  exact h

theorem ends_self {err : ApiError} (h : err.code ≠ .internal) : Ends w (.error err : Except ApiError α) w :=
  ⟨rfl, rfl, notInternal_error h⟩

/-- The checks on a forward fail as the request's own fault. -/
theorem checkForwardRequest_code {a : DnatAdapter} {conf : Except String Unit} {defaultIface : Option String}
    {req : AddForwardRequest} {err : ApiError}
    (h : checkForwardRequest a conf defaultIface req = .error err) : err.code ≠ .internal := by
  unfold checkForwardRequest at h
  -- The checks in their order; each has an error code of its own, and none is an internal one.
  cases hports : validatePorts req.listen req.destPort with
  | error e =>
    rw [hports] at h
    cases h
    simp
  | ok =>
    rw [hports] at h
    dsimp only [Except.mapError] at h
    split at h
    · cases h
      decide
    · cases hinput : validateForwardInput req.iface req.destHost with
      | error e =>
        rw [hinput] at h
        cases h
        unfold validateForwardInput at hinput
        split at hinput
        · cases hinput
          decide
        · split at hinput
          · cases hinput
            simp [badTarget]
          · cases hinput
      | ok =>
        rw [hinput] at h
        split at h
        · cases h
          decide
        · cases h

/-! ### The requests -/

theorem outcome_allow {who : DeviceId} {req : AllowRequest} {now : DateTime} {id : EntryId} :
    wp (Ipgate.allow (machine B) who req now id) (Outcome w (some (w.store.allow req who now id).2)) w := by
  have h : wp (saveStore (machine B) >>= fun _ => do
        mapErr nftFailure (callAdd (machine B) (w.store.allow req who now id).1)
        return (w.store.allow req who now id).1)
      (Saved w.host.disk (w.store.allow req who now id).2) { w with store := (w.store.allow req who now id).2 } :=
    saved_andThen (harmless_bind (harmless_call fun _ => ⟨rfl, rfl⟩) fun _ => harmless_pure)
  exact h

theorem outcome_revoke {req : RevokeRequest} :
    wp (Ipgate.revoke (machine B) req) (Outcome w (Request.toStore B cfg w (.revoke req))) w := by
  simp only [Ipgate.revoke, wp_bind, wp_get, andThen_ok, Request.toStore]
  cases revokeTarget w.store req with
  | none => exact ends_self (by decide)
  | some target =>
    simp only [wp_bind, onStore, wp_update, andThen_ok, rejectIf, Option.bind_eq_bind, Option.bind_some]
    cases hremoved : (w.store.revokeByTarget target).1 with
    | false =>
      rw [State.revokeByTarget_false hremoved]
      exact ends_self (by decide)
    | true =>
      have h : wp (saveStore (machine B) >>= fun _ => mapErr nftFailure (callRemove (machine B) target))
          (Saved w.host.disk (w.store.revokeByTarget target).2) { w with store := (w.store.revokeByTarget target).2 } :=
        saved_andThen (harmless_call fun _ => ⟨rfl, rfl⟩)
      exact h

theorem outcome_revokeDevice {id : DeviceId} :
    wp (Ipgate.revokeDevice (machine B) id) (Outcome w (Request.toStore B cfg w (.revokeDevice id))) w := by
  simp only [Ipgate.revokeDevice, wp_bind, onStore, wp_update, andThen_ok, rejectIf, Request.toStore]
  cases hremoved : (w.store.removeDevice id).1 with
  | false =>
    rw [State.removeDevice_false hremoved]
    exact ends_self (by decide)
  | true =>
    have h : wp (saveStore (machine B)) (Saved w.host.disk (w.store.removeDevice id).2)
        { w with store := (w.store.removeDevice id).2 } := saved_alone
    exact h

theorem outcome_addForward {a : DnatAdapter} {reads : ForwardReads} {who : DeviceId} {req : AddForwardRequest}
    {now : DateTime} {id : ForwardId} : wp (Ipgate.addForward (machine B) (machineNat N) a reads who req now id)
      (Outcome w (Request.toStore B cfg w (.addForward a reads who req now id))) w := by
  simp only [Ipgate.addForward, wp_bind, wp_lift, Request.toStore]
  cases hcheck : checkForwardRequest a reads.dnatConf reads.dnatIface req with
  | error err => exact ends_self (checkForwardRequest_code hcheck)
  | ok =>
    have h : wp (saveStore (machine B) >>= fun _ => do
          applyForwards (machine B) (machineNat N) reads.pass
          viewForward (w.store.addForward req who now id).1)
        (Saved w.host.disk (w.store.addForward req who now id).2)
        { w with store := (w.store.addForward req who now id).2 } :=
      saved_andThen (harmless_bind harmless_applyForwards fun _ => harmless_viewForward)
    exact h

theorem outcome_updateForward {a : DnatAdapter} {reads : ForwardReads} {id : ForwardId} {req : AddForwardRequest} :
    wp (Ipgate.updateForward (machine B) (machineNat N) a reads id req)
      (Outcome w (Request.toStore B cfg w (.updateForward a reads id req))) w := by
  simp only [Ipgate.updateForward, wp_bind, wp_lift, Request.toStore]
  cases hcheck : checkForwardRequest a reads.dnatConf reads.dnatIface req with
  | error err => exact ends_self (checkForwardRequest_code hcheck)
  | ok =>
    simp only [andThen_ok, wp_bind, wp_get, rejectIf, onStore]
    cases hclash : Forwarding.overlapsOther w.store reads.otherIface id req with
    | true => exact ends_self (by decide)
    | false =>
      -- A rule that is gone by now is an error of the request, with nothing to save.
      cases hupdate : w.store.updateForward id req with
      | none =>
        have hchange : changeForward id req w.store = (none, w.store) := by
          unfold changeForward
          rw [hupdate]
        simp only [onlyIf, Bool.false_eq_true, if_false, wp_pure, andThen_ok, wp_bind, wp_update, hchange, wp_fail]
        exact ends_self (by decide)
      | some changed =>
        have hchange : changeForward id req w.store = (some changed.1, changed.2) := by
          unfold changeForward
          rw [hupdate]
        simp only [onlyIf, Bool.false_eq_true, if_false, wp_pure, andThen_ok, wp_bind, wp_update, hchange]
        have h : wp (saveStore (machine B) >>= fun _ => do
              applyForwards (machine B) (machineNat N) reads.pass
              viewForward changed.1)
            (Saved w.host.disk changed.2) { w with store := changed.2 } :=
          saved_andThen (harmless_bind harmless_applyForwards fun _ => harmless_viewForward)
        rw [wp_bind] at h
        exact h

theorem outcome_removeForward {env : ForwardRule → HostEnv} {id : ForwardId} :
    wp (Ipgate.removeForward (machine B) (machineNat N) env id)
      (Outcome w (Request.toStore B cfg w (.removeForward env id))) w := by
  simp only [Ipgate.removeForward, wp_bind, onStore, wp_update, andThen_ok, rejectIf, Request.toStore]
  cases hremoved : (w.store.removeForward id).1 with
  | false =>
    rw [State.removeForward_false hremoved]
    exact ends_self (by decide)
  | true =>
    have h : wp (saveStore (machine B) >>= fun _ => applyForwards (machine B) (machineNat N) env)
        (Saved w.host.disk (w.store.removeForward id).2) { w with store := (w.store.removeForward id).2 } :=
      saved_andThen harmless_applyForwards
    exact h

theorem outcome_setForwardExposure {on : Bool} : wp (Ipgate.setForwardExposure (machine B) cfg on)
    (Outcome w (Request.toStore B cfg w (.setForwardExposure on))) w := by
  simp only [Ipgate.setForwardExposure, wp_bind, wp_get, andThen_ok, Request.toStore]
  apply wp_mono wp_taken
  intro r w₁ h₁
  obtain ⟨htaken, hstore, hdisk, hresult⟩ := h₁
  rw [htaken]
  cases r with
  | error err => exact ⟨congrArg view hstore, hdisk, hresult.of_error⟩
  | ok applied =>
    rw [andThen_ok]
    cases applied with
    | mk gate knock =>
      have hcommit : wp (commit (machine B) cfg fun s => (s.setForwardAllowlistOnly on).2)
          (Saved w₁.host.disk (w₁.store.setForwardAllowlistOnly on).2) w₁ := saved_commit
      rw [hstore, hdisk] at hcommit
      cases gate with
      | rejected e => exact ⟨congrArg view hstore, hdisk, notInternal_error (by simp [gateRejected])⟩
      | off => exact hcommit
      | active => exact hcommit

theorem outcome_setSshExposure {on : Bool} {now : DateTime} : wp (Ipgate.setSshExposure (machine B) cfg on now)
    (Outcome w (Request.toStore B cfg w (.setSshExposure on now))) w := by
  simp only [Ipgate.setSshExposure, wp_bind, wp_get, andThen_ok, rejectIf, wp_onlyIf, wp_fail, andThen_error,
    Request.toStore]
  constructor
  · intro hempty
    obtain ⟨hon, hnone⟩ := Bool.and_eq_true_iff.mp hempty
    rw [if_pos ⟨hon, .inl (by simpa using hnone)⟩]
    exact ends_self (by decide)
  · intro hsome
    by_cases hcovers : on = true ∧ (cfg.publicPortCoveringSsh (w.store.rulesetFlags.withSsh on)).isSome
    · obtain ⟨hon, hcovering⟩ := hcovers
      obtain ⟨p, hp⟩ := Option.isSome_iff_exists.mp hcovering
      have hthen : (if on then cfg.publicPortCoveringSsh (w.store.rulesetFlags.withSsh on) else none) = some p :=
        (if_pos hon).trans hp
      rw [hthen, if_pos ⟨hon, .inr hcovering⟩]
      exact ends_self (by simp [publicPortCovers])
    · have hnone : (if on then cfg.publicPortCoveringSsh (w.store.rulesetFlags.withSsh on) else none) = none := by
        cases hon : on with
        | false => rfl
        | true =>
          subst hon
          simpa using hcovers
      have hpasses : ¬(on = true ∧ ((w.store.entries.any fun e => !e.isExpired now) = false ∨
          (cfg.publicPortCoveringSsh (w.store.rulesetFlags.withSsh on)).isSome = true)) := by
        rintro ⟨hon, hempty | hcovering⟩
        · rw [hon, hempty] at hsome
          cases hsome
        · exact hcovers ⟨hon, hcovering⟩
      rw [hnone, if_neg hpasses, wp_bind]
      apply wp_mono wp_taken
      intro r w₁ h₁
      obtain ⟨htaken, hstore, hdisk, hresult⟩ := h₁
      rw [htaken]
      cases r with
      | error err =>
        exact ⟨congrArg view hstore, hdisk, hresult.of_error⟩
      | ok applied =>
        rw [andThen_ok]
        cases applied with
        | mk gate knock =>
          have hcommit : wp (commit (machine B) cfg fun s => (s.setSshAllowlistOnly on).2)
              (Saved w₁.host.disk (w₁.store.setSshAllowlistOnly on).2) w₁ := saved_commit
          have hrestore : wp (reapplyRuleset (machine B) cfg w.store.rulesetFlags w.store.entries)
              (fun r w' => taken B cfg w₁ w.store.rulesetFlags = r.toOption ∧ w'.store = w₁.store ∧
                w'.host.disk = w₁.host.disk ∧ NotInternal r) w₁ := by
            rw [← hstore]
            exact wp_taken
          rw [hstore, hdisk] at hcommit
          -- A table without its knock rules is taken back, and then there is nothing to save either.
          cases knock with
          | rejected e =>
            dsimp only
            rw [wp_bind]
            apply wp_mono hrestore
            intro r₂ w₂ h₂
            obtain ⟨-, hstore₂, hdisk₂, hresult₂⟩ := h₂
            rw [hstore] at hstore₂
            rw [hdisk] at hdisk₂
            cases r₂ with
            | error err =>
              exact ⟨congrArg view hstore₂, hdisk₂, hresult₂.of_error⟩
            | ok applied₂ => exact ⟨congrArg view hstore₂, hdisk₂, notInternal_error (by simp [knockRejected])⟩
          | off => exact hcommit
          | active => exact hcommit

/-- Rebuild the table for other public ports, and store them. -/
theorem outcome_ports {ports : List PublicPort} : wp (do
      let _ ← reapplyRuleset (machine B) cfg (w.store.rulesetFlags.withPorts ports) w.store.entries
      commitPorts (machine B) cfg ports)
    (Outcome w ((taken B cfg w (w.store.rulesetFlags.withPorts ports)).map fun _ => w.store.setPublicPorts ports)) w := by
  rw [wp_bind]
  apply wp_mono wp_taken
  intro r w₁ h₁
  obtain ⟨htaken, hstore, hdisk, hresult⟩ := h₁
  rw [htaken]
  cases r with
  | error err => exact ⟨congrArg view hstore, hdisk, hresult.of_error⟩
  | ok applied =>
    have hcommit : wp (commitPorts (machine B) cfg ports) (Saved w₁.host.disk (w₁.store.setPublicPorts ports)) w₁ :=
      saved_commitPorts
    rw [hstore, hdisk] at hcommit
    exact hcommit

theorem outcome_addPublicPort {req : PublicPortRequest} : wp (Ipgate.addPublicPort (machine B) cfg req)
    (Outcome w (Request.toStore B cfg w (.addPublicPort req))) w := by
  simp only [Ipgate.addPublicPort, wp_bind, rejectIf, wp_onlyIf, wp_fail, andThen_error, andThen_ok, wp_get,
    Request.toStore]
  constructor
  · intro hrange
    have hbad : req.ports.start = 0 ∨ req.ports.isValid = false := by simpa using hrange
    rw [if_pos hbad]
    exact ends_self (by decide)
  · intro hrange
    have hgood : ¬(req.ports.start = 0 ∨ req.ports.isValid = false) := by simpa using hrange
    rw [if_neg hgood]
    split
    -- The port is there already and only its note changes: no table is rebuilt.
    · exact saved_commitPorts
    · simp only [wp_bind, wp_onlyIf, wp_fail, andThen_error, andThen_ok]
      constructor
      · intro hssh
        rw [if_pos (Bool.and_eq_true_iff.mp hssh)]
        exact ends_self (by simp [portWouldOpenSsh])
      · intro hssh
        have hallowed : ¬((w.store.rulesetFlags.withPorts
              (w.store.publicPorts ++ [⟨req.proto, req.ports, Text.trim req.note, false⟩])).sshAllowlistOnly = true ∧
            cfg.coversSsh req.proto req.ports = true) := fun hboth => by
          rw [Bool.and_eq_true_iff.mpr hboth] at hssh
          cases hssh
        rw [if_neg hallowed, ← wp_bind]
        exact outcome_ports

theorem outcome_removePublicPort {proto : ForwardProto} {range : PortRange} :
    wp (Ipgate.removePublicPort (machine B) cfg proto range)
      (Outcome w (Request.toStore B cfg w (.removePublicPort proto range))) w := by
  simp only [Ipgate.removePublicPort, wp_bind, wp_get, rejectIf, wp_onlyIf, wp_fail, andThen_error, andThen_ok,
    Request.toStore, decide_eq_true_eq, decide_eq_false_iff_not]
  constructor
  · intro hsame
    rw [if_pos hsame]
    exact ends_self (by simp [publicPortNotFound])
  · intro hless
    rw [if_neg hless, ← wp_bind]
    exact outcome_ports

theorem outcome_run (B : NftBackend κ) (N : NatBackend κ) (cfg : AgentConfig) (w : World (Machine κ)) (q : Request) :
    Outcome w (q.toStore B cfg w) (q.run B N cfg w).1 (q.after B N cfg w) := by
  cases q with
  | allow who req now id => exact outcome_discard outcome_allow
  | revoke req => exact outcome_revoke
  | addForward a reads who req now id => exact outcome_discard outcome_addForward
  | updateForward a reads id req => exact outcome_discard outcome_updateForward
  | removeForward env id => exact outcome_removeForward
  | setSshExposure on now => exact outcome_discard outcome_setSshExposure
  | setForwardExposure on => exact outcome_discard outcome_setForwardExposure
  | addPublicPort req => exact outcome_discard outcome_addPublicPort
  | removePublicPort proto range => exact outcome_discard outcome_removePublicPort
  | revokeDevice id => exact outcome_revokeDevice

end Outcome

/-! ## A change that is none -/

section Same

variable {κ : Type} {B : NftBackend κ} {cfg : AgentConfig} {w : World (Machine κ)} {s s' : State} {q : Request}

theorem content_of_view (hview : view s = view s') (hresolved : s.resolved = s'.resolved) : s.content = s'.content := by
  simp only [view, View.mk.injEq, State.rulesetFlags, RulesetFlags.mk.injEq] at hview
  obtain ⟨hentries, hdevices, hforwards, hssh, hforward, hports⟩ := hview
  simp [State.content, hentries, hdevices, hforwards, hssh, hforward, hports, hresolved]

/-- A list that a replacement leaves as it is had the new rule already. -/
theorem replaceForward_same {rules : List ForwardRule} {id : ForwardId} {rule new : ForwardRule}
    (hfind : rules.find? (fun f => f.id = id) = some rule) (hsame : State.replaceForward id new rules = rules) :
    new = rule := by
  induction rules with
  | nil => cases hfind
  | cons f fs ih =>
    unfold State.replaceForward at hsame
    by_cases hid : f.id = id
    · rw [if_pos hid] at hsame
      rw [List.find?_cons_of_pos (by simpa using hid)] at hfind
      cases hfind
      exact (List.cons.inj hsame).1
    · rw [if_neg hid] at hsame
      rw [List.find?_cons_of_neg (by simpa using hid)] at hfind
      exact ih hfind (List.cons.inj hsame).2

theorem resolved_updateForward {id : ForwardId} {req : AddForwardRequest}
    (h : (w.store.updateForward id req).map Prod.snd = some s) (hview : view s = view w.store) :
    s.resolved = w.store.resolved := by
  unfold State.updateForward at h
  cases hfind : w.store.findForward id with
  | none =>
    rw [hfind] at h
    cases h
  | some rule =>
    rw [hfind] at h
    cases h
    unfold State.findForward at hfind
    have hsame := replaceForward_same hfind (congrArg View.forwards hview)
    have hhost : rule.destHost = req.destHost := (congrArg ForwardRule.destHost hsame).symm
    simp [hhost]

/-- A request whose change is none leaves the addresses of the forwards alone. -/
theorem resolved_toStore (h : q.toStore B cfg w = some s) (hview : view s = view w.store) :
    s.resolved = w.store.resolved := by
  cases q with
  | allow who req now id =>
    cases h
    rfl
  | revoke req =>
    simp only [Request.toStore, Option.bind_eq_bind, Option.bind_eq_some_iff] at h
    obtain ⟨target, -, h⟩ := h
    split at h
    · cases h
      unfold State.revokeByTarget
      dsimp only
      split
      · rfl
      · rfl
    · cases h
  | addForward a reads who req now id =>
    simp only [Request.toStore] at h
    split at h
    · cases h
      rfl
    · cases h
  | updateForward a reads id req =>
    simp only [Request.toStore] at h
    split at h
    · exact resolved_updateForward h hview
    · cases h
  | removeForward env id =>
    simp only [Request.toStore] at h
    split at h
    · next hremoved =>
      cases h
      -- A removal changes the list of the forwards, which the view has in it.
      obtain ⟨⟨f, hf, hid⟩, -⟩ := State.removeForward_true hremoved
      have hforwards : (w.store.removeForward id).2.forwards = w.store.forwards := congrArg View.forwards hview
      rw [← hforwards] at hf
      exact ((State.mem_removeForward.mp hf).2 hid).elim
    · cases h
  | setSshExposure on now =>
    simp only [Request.toStore] at h
    split at h
    · cases h
    · split at h
      · cases h
      · cases h
      · cases h
        rfl
  | setForwardExposure on =>
    simp only [Request.toStore] at h
    split at h
    · cases h
    · cases h
    · cases h
      rfl
  | addPublicPort req =>
    simp only [Request.toStore] at h
    split at h
    · cases h
    · split at h
      · cases h
        rfl
      · split at h
        · cases h
        · obtain ⟨_, _, rfl⟩ := Option.map_eq_some_iff.mp h
          rfl
  | removePublicPort proto range =>
    simp only [Request.toStore] at h
    split at h
    · cases h
    · obtain ⟨_, _, rfl⟩ := Option.map_eq_some_iff.mp h
      rfl
  | revokeDevice id =>
    simp only [Request.toStore] at h
    split at h
    · cases h
      rfl
    · cases h

end Same

/-! ## Later on -/

section Later

variable {κ : Type} {B : NftBackend κ} {N : NatBackend κ} {cfg : AgentConfig} {w w' : World (Machine κ)}

theorem through_run (q : Request) : Through seen (q.run B N cfg) := by
  cases q with
  | allow who req now id => exact through_discard through_allow
  | revoke req => exact through_revoke
  | addForward a reads who req now id => exact through_discard through_addForward
  | updateForward a reads id req => exact through_discard through_updateForward
  | removeForward env id => exact through_removeForward
  | setSshExposure on now => exact through_discard through_setSshExposure
  | setForwardExposure on => exact through_discard through_setForwardExposure
  | addPublicPort req => exact through_discard through_addPublicPort
  | removePublicPort proto range => exact through_discard through_removePublicPort
  | revokeDevice id => exact through_revokeDevice

theorem seen_later (h : seen w = seen w') (e : Later) : seen (Later.run B N cfg w e) = seen (Later.run B N cfg w' e) := by
  cases e with
  | request q => exact (through_run q w w' h).2
  | tick O now => exact (through_reconcileTick w w' h).2
  | rebuild => exact (through_rebuild w w' h).2
  | resolve hash env lastHash => exact (through_resolveTick w w' h).2
  | restart =>
    simp only [seen, Seen.mk.injEq] at h ⊢
    obtain ⟨-, hlive, haccepted, hkernel, hwritten, hanswers⟩ := h
    exact ⟨hwritten, hlive, haccepted, hkernel, hwritten, hanswers⟩

/-- Worlds that differ in the counters only have the same kernel ever after. -/
theorem kernelAfter_congr (h : seen w = seen w') (es : List Later) :
    kernelAfter B N cfg w es = kernelAfter B N cfg w' es := by
  have hall : seen (es.foldl (Later.run B N cfg) w) = seen (es.foldl (Later.run B N cfg) w') := by
    induction es generalizing w w' with
    | nil => exact h
    | cons e es ih => exact ih (seen_later h e)
  exact congrArg Seen.kernel hall

end Later

/-! ## When memory and file agree -/

section Agreement

variable {κ : Type} {B : NftBackend κ} {N : NatBackend κ} {cfg : AgentConfig} {w : World (Machine κ)} {q : Request}

/-- From agreement, a request keeps what it should unless its change is lost. -/
theorem kept_iff (hsync : InSync w) : Kept B N cfg w q ↔ ¬q.Lost B cfg w := by
  have hout := outcome_run B N cfg w q
  -- A request saves nothing, saves what it made, or makes something and cannot save it.
  cases hto : q.toStore B cfg w with
  | none =>
    rw [hto] at hout
    have hsaved : ¬q.SaveFailed B N cfg w := fun ⟨e, he⟩ => hout.result e he
    refine ⟨fun _ hlost => ?_, fun _ => ⟨fun h => (hsaved h).elim, ?_, fun h => (hsaved h).elim⟩⟩
    · obtain ⟨s, hs, -⟩ := hlost
      rw [hto] at hs
      cases hs
    · unfold InSync
      rw [hout.disk, hout.store]
      exact hsync
  | some s =>
    rw [hto] at hout
    unfold Outcome Saved at hout
    dsimp only at hout
    cases hanswer : (w.host.disk.save s).1 with
    | ok =>
      rw [hanswer] at hout
      obtain ⟨hresult, -, hagree⟩ := hout
      have hsaved : ¬q.SaveFailed B N cfg w := fun ⟨e, he⟩ => hresult e he
      refine ⟨fun _ hlost => ?_, fun _ => ⟨fun h => (hsaved h).elim, hagree, fun h => (hsaved h).elim⟩⟩
      obtain ⟨s', hs', hrefused, -⟩ := hlost
      rw [hto] at hs'
      cases hs'
      rw [hanswer] at hrefused
      cases hrefused
    | error e =>
      rw [hanswer] at hout
      obtain ⟨hresult, hstore, hwritten⟩ := hout
      constructor
      · intro hkept hlost
        obtain ⟨s', hs', -, hchanged⟩ := hlost
        rw [hto] at hs'
        cases hs'
        have hsame := hkept.unchanged ⟨e, hresult⟩
        rw [hstore] at hsame
        exact hchanged hsame
      · intro hnot
        -- The write was refused, but what it had to save is what the file has already.
        have hview : view s = view w.store := by
          by_contra hchanged
          exact hnot ⟨s, hto, by rw [hanswer]; rfl, hchanged⟩
        refine ⟨fun _ => by rw [hstore, hview], ?_, fun _ es => ?_⟩
        · unfold InSync
          rw [hwritten, hstore, hview]
          exact hsync
        · refine kernelAfter_congr ?_ es
          have hcontent := content_of_view hview (resolved_toStore hto hview)
          unfold seen
          rw [hstore, hcontent]

end Agreement

/-- Memory and the state file agree after every request, requests whose save failed have changed
nothing, and they do nothing to the kernel later on, exactly when no change is lost. -/
theorem saved_or_unchanged {κ : Type} (B : NftBackend κ) (N : NatBackend κ) (cfg : AgentConfig) (w : World (Machine κ))
    (qs : List Request) (hsync : InSync w) :
    Lts.StepsMeet (step B N cfg) (Kept B N cfg) w qs ↔
      Lts.StepsMeet (step B N cfg) (fun w q => ¬q.Lost B cfg w) w qs := by
  constructor
  · intro hkept
    refine hkept.of_invariant (I := InSync) (fun w q w' _ hk hstep => ?_) (fun w q hs hk => (kept_iff hs).mp hk) hsync
    cases hstep
    exact hk.inSync
  · intro hnot
    refine hnot.of_invariant (I := InSync) (fun w q w' hs hn hstep => ?_) (fun w q hs hn => (kept_iff hs).mpr hn) hsync
    cases hstep
    exact ((kept_iff hs).mpr hn).inSync

/-! ### A full disk -/

/-- A kernel that has a set of targets and takes every call. -/
def targetSet : NftBackend (List IpNet) where
  apply _ _ k := (.ok (), k)
  add entry k := (.ok (), k ++ [entry.target])
  remove target k := (.ok (), k.filter fun t => t ≠ target)
  list k := (.ok (k.map fun t => ⟨t, none⟩), k)

def noNat : NatBackend (List IpNet) where
  applyNat _ k := (.ok (), k)
  flushNat k := (.ok (), k)

/-- A fresh installation on a disk that answers so. -/
def freshMachine (answers : List (Except String Unit)) : World (Machine (List IpNet)) where
  store := .default
  live := ⟨false, false⟩
  host := ⟨[], ⟨.default, answers⟩⟩
  accepted := AgentConfig.default.rulesetWith State.default.rulesetFlags

def home : IpNet := .v4 (.host (ipv4 203 0 113 7))

def allowHome : Request := .allow ⟨1⟩ ⟨home, "", none⟩ 0 ⟨1⟩

def diskFull : Except String Unit := .error "No space left on device (os error 28)"

/-- A save that is refused loses nothing where nothing has changed. -/
theorem saved_or_unchanged_refused :
    Lts.StepsMeet (step targetSet noNat .default) (Kept targetSet noNat .default) (freshMachine [diskFull])
      [.setForwardExposure false, allowHome] :=
  (saved_or_unchanged targetSet noNat .default (freshMachine [diskFull]) _ rfl).mpr (by decide +kernel)

/-- The address that could not be saved is in memory, and the next tick admits it. -/
theorem refused_allow_takes_effect :
    InSync (freshMachine [diskFull]) ∧ allowHome.SaveFailed targetSet noNat .default (freshMachine [diskFull]) ∧
      ¬Lts.StepsMeet (step targetSet noNat .default) (Kept targetSet noNat .default) (freshMachine [diskFull])
        [allowHome] ∧
      kernelAfter targetSet noNat .default (allowHome.after targetSet noNat .default (freshMachine [diskFull]))
        [.tick .asIs 0] = [home] ∧
      kernelAfter targetSet noNat .default (freshMachine []) [.tick .asIs 0] = [] := by
  refine ⟨rfl, ⟨"No space left on device (os error 28)", by decide +kernel⟩, fun hkept => ?_, by decide +kernel,
    by decide +kernel⟩
  have hsync := hkept.1.inSync
  revert hsync
  decide +kernel

end Ipgate.Saves
