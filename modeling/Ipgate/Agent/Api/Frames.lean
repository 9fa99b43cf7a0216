-- SUMMARY: What the requests and the loops leave alone in the store.
import Ipgate.Agent.Api.Settings
import Ipgate.Agent.Forward

/-!
# Frames

A request that does not touch a part of the store leaves it as it was, however its calls
end. The part is a parameter, and each rule asks of it what the operations of the store
that the request uses leave of it.
-/

namespace Ipgate

open Net Act

section Frames

variable {κ β : Type} {H : Host κ} {N : NatBackend κ} {cfg : AgentConfig} {part : State → β}
variable {now : DateTime} {entries : List Entry} {w : World κ}

/-- The action leaves a part of the store alone. -/
def Frames {ε α : Type} (part : State → β) (m : Act (World κ) ε α) : Prop := Keeps (fun w => part w.store) m

theorem frames_onStore {ε α : Type} {f : State → α × State} (h : ∀ s, part (f s).2 = part s) :
    Frames part (onStore f : Act (World κ) ε α) := fun w => h w.store

theorem frames_callAdd {entry : Entry} : Frames part (callAdd H entry) := fun _ => rfl

theorem frames_callRemove {target : IpNet} : Frames part (callRemove H target) := fun _ => rfl

theorem frames_callSave : Frames part (callSave H) := fun _ => rfl

theorem frames_saveStore : Frames part (saveStore H) := fun _ => rfl

theorem frames_rejectIf {c : Bool} {e : ApiError} : Frames part (rejectIf c e : Act (World κ) ApiError Unit) :=
  keeps_onlyIf keeps_fail

/-- Rebuilding the table leaves alone whatever its calls do. -/
theorem keeps_applyRuleset {π : Type} {p : World κ → π} (h : ∀ c, Keeps p (callApply H c entries)) {c : RulesetConfig} :
    Keeps p (applyRuleset H c entries) := by
  have htry : ∀ cands tried firstErr, Keeps p (tryCandidates H c entries cands tried firstErr) := by
    intro cands
    induction cands with
    | nil => exact fun _ _ => keeps_fail
    | cons cand rest ih =>
      intro tried firstErr
      unfold tryCandidates
      split
      · exact ih tried firstErr
      · refine keeps_bind (keeps_attempt (keeps_mapErr (h _))) fun r => ?_
        cases r with
        | ok => exact keeps_pure
        | error e =>
          cases firstErr with
          | none => exact ih _ _
          | some first =>
            dsimp only
            split
            · exact keeps_fail
            · exact ih _ _
  exact htry _ _ _

/-- Rebuilding the table does not touch the store. -/
theorem applyRuleset_store (c : RulesetConfig) (entries : List Entry) (w : World κ) :
    (applyRuleset H c entries w).2.store = w.store := by
  have h := applyRuleset_ladder (H := H) c entries w
  unfold wp Rebuilds at h
  split at h
  · rw [h.1]
  · rw [h.1]

theorem frames_applyRuleset {c : RulesetConfig} : Frames part (applyRuleset H c entries) := by
  intro w
  simp only [applyRuleset_store]

theorem frames_reapplyRuleset {flags : RulesetFlags} : Frames part (reapplyRuleset H cfg flags entries) :=
  keeps_bind (keeps_mapErr frames_applyRuleset) fun _ => keeps_bind (fun _ => rfl) fun _ => keeps_pure

theorem wp_reapplyRuleset_store {flags : RulesetFlags} :
    wp (reapplyRuleset H cfg flags entries) (fun _ w' => w'.store = w.store) w :=
  (frames_reapplyRuleset : Frames id (reapplyRuleset H cfg flags entries)) w

theorem wp_commit_store {f : State → State} : wp (commit H cfg f) (fun _ w' => w'.store = f w.store) w := by
  simp only [commit, wp_bind, onStore, wp_update, andThen_ok]
  unfold saveStore wp mapErr
  dsimp only
  cases (callSave H { w with store := f w.store }).1 with
  | ok => rfl
  | error e => rfl

theorem frames_commit {f : State → State} (h : ∀ s, part (f s) = part s) : Frames part (commit H cfg f) :=
  keeps_bind (frames_onStore h) fun _ => keeps_bind frames_saveStore fun _ => keeps_bind keeps_get fun _ => keeps_pure

theorem frames_commitPorts {ports : List PublicPort} (h : ∀ s ports, part (s.setPublicPorts ports) = part s) :
    Frames part (commitPorts H cfg ports) :=
  keeps_bind (frames_onStore fun s => h s ports) fun _ =>
    keeps_bind frames_saveStore fun _ => keeps_bind keeps_get fun _ => keeps_pure

theorem frames_allow {who : DeviceId} {req : AllowRequest} {id : EntryId}
    (h : ∀ s, part (s.allow req who now id).2 = part s) : Frames part (allow H who req now id) :=
  keeps_bind (frames_onStore h) fun _ =>
    keeps_bind frames_saveStore fun _ => keeps_bind (keeps_mapErr frames_callAdd) fun _ => keeps_pure

theorem frames_revoke {req : RevokeRequest} (h : ∀ s target, part (s.revokeByTarget target).2 = part s) :
    Frames part (revoke H req) := by
  refine keeps_bind keeps_get fun w => ?_
  split
  · exact keeps_fail
  · exact keeps_bind (frames_onStore fun s => h s _) fun _ =>
      keeps_bind frames_rejectIf fun _ => keeps_bind frames_saveStore fun _ => keeps_mapErr frames_callRemove

theorem frames_setSshExposure {on : Bool} (h : ∀ s, part (s.setSshAllowlistOnly on).2 = part s) :
    Frames part (setSshExposure H cfg on now) := by
  refine keeps_bind keeps_get fun w => keeps_bind frames_rejectIf fun _ => ?_
  dsimp only
  generalize (if on then cfg.publicPortCoveringSsh (w.store.rulesetFlags.withSsh on) else none) = covering
  cases covering with
  | some p => exact keeps_fail
  | none =>
    refine keeps_bind frames_reapplyRuleset fun applied => ?_
    split
    · exact keeps_bind frames_reapplyRuleset fun _ => keeps_fail
    · exact frames_commit h

theorem frames_setForwardExposure {on : Bool} (h : ∀ s, part (s.setForwardAllowlistOnly on).2 = part s) :
    Frames part (setForwardExposure H cfg on) := by
  refine keeps_bind keeps_get fun w => keeps_bind frames_reapplyRuleset fun applied => ?_
  split
  · exact keeps_fail
  · exact frames_commit h

theorem frames_addPublicPort {req : PublicPortRequest} (h : ∀ s ports, part (s.setPublicPorts ports) = part s) :
    Frames part (addPublicPort H cfg req) := by
  refine keeps_bind frames_rejectIf fun _ => keeps_bind keeps_get fun w => ?_
  dsimp only
  split
  · exact frames_commitPorts h
  · exact keeps_bind frames_rejectIf fun _ =>
      keeps_bind frames_reapplyRuleset fun _ => frames_commitPorts h

theorem frames_removePublicPort {proto : ForwardProto} {range : PortRange}
    (h : ∀ s ports, part (s.setPublicPorts ports) = part s) : Frames part (removePublicPort H cfg proto range) :=
  keeps_bind keeps_get fun _ => keeps_bind frames_rejectIf fun _ =>
    keeps_bind frames_reapplyRuleset fun _ => frames_commitPorts h

theorem frames_rebuild : Frames part (rebuild H cfg) := by
  refine keeps_bind keeps_get fun w => keeps_bind frames_applyRuleset fun r => ?_
  split
  · exact fun _ => rfl
  · exact keeps_pure

/-- A round forgets what has expired, and then leaves the store alone. -/
theorem reconcileTick_store {O : HashOrder} :
    (reconcileTick H cfg O now w).2.store = (w.store.pruneExpired now).2 := by
  have hprune : wp (pruneAndSnapshot H now) (fun _ w' => w'.store = (w.store.pruneExpired now).2) w := by
    simp only [pruneAndSnapshot, wp_bind, onStore, wp_update, andThen_ok, wp_onlyIf, wp_ignore]
    exact ⟨fun _ => rfl, fun _ => rfl⟩
  have h : wp (reconcileTick H cfg O now) (fun _ w' => w'.store = (w.store.pruneExpired now).2) w := by
    unfold reconcileTick
    rw [wp_bind]
    apply wp_mono hprune
    intro r w₁ hstore
    cases r with
    | error e => exact hstore
    | ok entries =>
      rw [andThen_ok, ← hstore]
      refine (keeps_bind (fun _ => rfl) fun r => ?_ : Frames id _) w₁
      split
      · refine keeps_bind (keeps_forEach (fun target => ?_) _) fun _ =>
          keeps_forEach (fun _ => keeps_ignore frames_callRemove) _
        unfold addMissing
        split
        · exact keeps_ignore frames_callAdd
        · exact keeps_pure
      · exact frames_rebuild
  exact h

theorem frames_reconcileTick {O : HashOrder} (h : ∀ s, part (s.pruneExpired now).2 = part s) :
    Frames part (reconcileTick H cfg O now) := by
  intro w
  exact (congrArg part reconcileTick_store).trans (h w.store)

theorem frames_applyNow {env : ForwardRule → HostEnv} (h : ∀ s map, part (s.setResolved map) = part s) :
    Frames part (applyNow H N env) :=
  keeps_bind keeps_get fun _ =>
    keeps_bind (keeps_bind (fun _ => rfl) fun _ =>
      keeps_bind (frames_onStore fun s => h s _) fun _ => keeps_ignore frames_callSave) fun _ => keeps_pure

/-- A part of the store that belongs to none of the requests on the allowlist and the settings. -/
structure Untouched (part : State → β) : Prop where
  allow : ∀ s req who now id, part (State.allow s req who now id).2 = part s
  revoke : ∀ s target, part (State.revokeByTarget s target).2 = part s
  ssh : ∀ s on, part (State.setSshAllowlistOnly s on).2 = part s
  forward : ∀ s on, part (State.setForwardAllowlistOnly s on).2 = part s
  ports : ∀ s ports, part (State.setPublicPorts s ports) = part s
  prune : ∀ s now, part (State.pruneExpired s now).2 = part s

theorem Untouched.afterEvent (h : Untouched part) (H : Host κ) (cfg : AgentConfig) (w : World κ) (e : Event) :
    part (afterEvent H cfg w e).store = part w.store := by
  cases e with
  | request r now =>
    cases r with
    | allow who req id => exact frames_allow (fun s => h.allow s ..) w
    | revoke req => exact frames_revoke h.revoke w
    | setSshExposure on => exact frames_setSshExposure (fun s => h.ssh s on) w
    | setForwardExposure on => exact frames_setForwardExposure (fun s => h.forward s on) w
    | addPublicPort req => exact frames_addPublicPort h.ports w
    | removePublicPort proto range => exact frames_removePublicPort h.ports w
  | tick O now => exact frames_reconcileTick (fun s => h.prune s now) w
  | rebuild => exact frames_rebuild w

/-- The devices are such a part. -/
theorem untouched_devices : Untouched State.devices where
  allow _ _ _ _ _ := rfl
  revoke s target := by
    unfold State.revokeByTarget
    dsimp only
    split <;> rfl
  ssh _ _ := rfl
  forward _ _ := rfl
  ports _ _ := rfl
  prune s now := by
    unfold State.pruneExpired
    dsimp only
    split <;> rfl

end Frames

end Ipgate
