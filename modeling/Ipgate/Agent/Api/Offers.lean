-- SUMMARY: The rulesets an event offers the backend, and what was refused when no knock rules are left in the kernel.
import Ipgate.Agent.Nft.Ladder
import Ipgate.Agent.Api.Settings

/-!
# What events offer

An event that rebuilds the table offers rulesets to the backend, and the record of
`Host.recorded` has them with the answers. Keeping it changes nothing else. If an
event leaves the kernel with SSH closed and without knock rules, and it was not so
before, the backend has refused a ruleset that had them.
-/

namespace Ipgate

open Net Act

/-! ## Events on record -/

section Recorded

variable {κ : Type} {H : Host κ} {cfg : AgentConfig} {entries : List Entry} {now : DateTime}

theorem erases_callAdd {entry : Entry} : Erases World.unrecorded (callAdd H.recorded entry) (callAdd H entry) :=
  fun _ => rfl

theorem erases_callRemove {target : IpNet} :
    Erases World.unrecorded (callRemove H.recorded target) (callRemove H target) := fun _ => rfl

theorem erases_callList : Erases World.unrecorded (callList H.recorded) (callList H) := fun _ => rfl

theorem erases_callSave : Erases World.unrecorded (callSave H.recorded) (callSave H) := fun _ => rfl

theorem erases_saveStore : Erases World.unrecorded (saveStore H.recorded) (saveStore H) :=
  erases_mapErr erases_callSave

theorem erases_onStore {ε α : Type} {f : State → α × State} :
    Erases (World.unrecorded (κ := κ)) (onStore f) (onStore f : Act (World κ) ε α) := fun _ => rfl

theorem erases_rejectIf {c : Bool} {e : ApiError} :
    Erases (World.unrecorded (κ := κ)) (rejectIf c e) (rejectIf c e) :=
  erases_onlyIf erases_fail

theorem erases_applyRuleset {c : RulesetConfig} :
    Erases World.unrecorded (applyRuleset H.recorded c entries) (applyRuleset H c entries) :=
  fun w => tryCandidates_unrecorded w

theorem erases_reapplyRuleset {flags : RulesetFlags} :
    Erases World.unrecorded (reapplyRuleset H.recorded cfg flags entries) (reapplyRuleset H cfg flags entries) :=
  erases_bind (erases_mapErr erases_applyRuleset) fun _ => erases_bind (fun _ => rfl) fun _ => erases_pure

theorem erases_commit {f : State → State} :
    Erases World.unrecorded (commit H.recorded cfg f) (commit H cfg f) :=
  erases_bind erases_onStore fun _ => erases_bind erases_saveStore fun _ => erases_get_bind fun _ => erases_pure

theorem erases_commitPorts {ports : List PublicPort} :
    Erases World.unrecorded (commitPorts H.recorded cfg ports) (commitPorts H cfg ports) :=
  erases_bind erases_onStore fun _ => erases_bind erases_saveStore fun _ => erases_get_bind fun _ => erases_pure

theorem erases_allow {who : DeviceId} {req : AllowRequest} {id : EntryId} :
    Erases World.unrecorded (allow H.recorded who req now id) (allow H who req now id) :=
  erases_bind erases_onStore fun _ => erases_bind erases_saveStore fun _ =>
    erases_bind (erases_mapErr erases_callAdd) fun _ => erases_pure

theorem erases_revoke {req : RevokeRequest} :
    Erases World.unrecorded (revoke H.recorded req) (revoke H req) := by
  refine erases_get_bind fun w => ?_
  rw [show w.unrecorded.store = w.store from rfl]
  cases revokeTarget w.store req with
  | none => exact erases_fail
  | some target =>
    exact erases_bind erases_onStore fun _ => erases_bind erases_rejectIf fun _ =>
      erases_bind erases_saveStore fun _ => erases_mapErr erases_callRemove

theorem erases_setSshExposure {on : Bool} :
    Erases World.unrecorded (setSshExposure H.recorded cfg on now) (setSshExposure H cfg on now) := by
  refine erases_get_bind fun w => ?_
  rw [show w.unrecorded.store = w.store from rfl]
  refine erases_bind erases_rejectIf fun _ => ?_
  dsimp only
  cases if on then cfg.publicPortCoveringSsh (w.store.rulesetFlags.withSsh on) else none with
  | some p => exact erases_fail
  | none =>
    refine erases_bind erases_reapplyRuleset fun applied => ?_
    cases applied.knock with
    | rejected e => exact erases_bind erases_reapplyRuleset fun _ => erases_fail
    | off => exact erases_commit
    | active => exact erases_commit

theorem erases_setForwardExposure {on : Bool} :
    Erases World.unrecorded (setForwardExposure H.recorded cfg on) (setForwardExposure H cfg on) := by
  refine erases_get_bind fun w => erases_bind erases_reapplyRuleset fun applied => ?_
  cases applied.gate with
  | rejected e => exact erases_fail
  | off => exact erases_commit
  | active => exact erases_commit

theorem erases_addPublicPort {req : PublicPortRequest} :
    Erases World.unrecorded (addPublicPort H.recorded cfg req) (addPublicPort H cfg req) := by
  refine erases_bind erases_rejectIf fun _ => erases_get_bind fun w => ?_
  rw [show w.unrecorded.store = w.store from rfl]
  dsimp only
  split
  · exact erases_commitPorts
  · exact erases_bind erases_rejectIf fun _ => erases_bind erases_reapplyRuleset fun _ => erases_commitPorts

theorem erases_removePublicPort {proto : ForwardProto} {range : PortRange} :
    Erases World.unrecorded (removePublicPort H.recorded cfg proto range) (removePublicPort H cfg proto range) :=
  erases_get_bind fun _ => erases_bind erases_rejectIf fun _ =>
    erases_bind erases_reapplyRuleset fun _ => erases_commitPorts

theorem erases_rebuild : Erases World.unrecorded (rebuild H.recorded cfg) (rebuild H cfg) := by
  refine erases_get_bind fun w => erases_bind (erases_attempt erases_applyRuleset) fun r => ?_
  cases r with
  | ok applied => exact fun _ => rfl
  | error e => exact erases_pure

theorem erases_addMissing {target : IpNet} :
    Erases World.unrecorded (addMissing H.recorded entries target) (addMissing H entries target) := by
  unfold addMissing
  split
  · exact erases_ignore erases_callAdd
  · exact erases_pure

theorem erases_pruneAndSnapshot :
    Erases World.unrecorded (pruneAndSnapshot H.recorded now) (pruneAndSnapshot H now) :=
  erases_bind erases_onStore fun _ => erases_bind (erases_onlyIf (erases_ignore erases_callSave)) fun _ =>
    erases_get_bind fun _ => erases_pure

theorem erases_reconcileTick {O : HashOrder} :
    Erases World.unrecorded (reconcileTick H.recorded cfg O now) (reconcileTick H cfg O now) := by
  refine erases_bind erases_pruneAndSnapshot fun entries => erases_bind (erases_attempt erases_callList) fun r => ?_
  cases r with
  | ok kernel =>
    exact erases_bind (erases_forEach (fun _ => erases_addMissing) _) fun _ =>
      erases_forEach (fun _ => erases_ignore erases_callRemove) _
  | error e => exact erases_rebuild

/-- Keeping a record changes nothing of what an event does. -/
theorem afterEvent_unrecorded (H : Host κ) (cfg : AgentConfig) (w : World (κ × List Offer)) (e : Event) :
    afterEvent H cfg w.unrecorded e = (afterEvent H.recorded cfg w e).unrecorded := by
  cases e with
  | request r now =>
    cases r with
    | allow who req id => exact congrArg Prod.snd (erases_allow w)
    | revoke req => exact congrArg Prod.snd (erases_revoke w)
    | setSshExposure on => exact congrArg Prod.snd (erases_setSshExposure w)
    | setForwardExposure on => exact congrArg Prod.snd (erases_setForwardExposure w)
    | addPublicPort req => exact congrArg Prod.snd (erases_addPublicPort w)
    | removePublicPort proto range => exact congrArg Prod.snd (erases_removePublicPort w)
  | tick O now => exact congrArg Prod.snd (erases_reconcileTick w)
  | rebuild => exact congrArg Prod.snd (erases_rebuild w)

/-- The rulesets that an event offers to the backend, with the answers. -/
def offers (H : Host κ) (cfg : AgentConfig) (w : World κ) (e : Event) : List Offer :=
  (afterEvent H.recorded cfg w.recorded e).host.2

/-- A ruleset with knock rules that was refused. -/
def Offer.RefusedKnock (o : Offer) : Prop := o.config.knock.isSome = true ∧ o.accepted = false

/-- SSH is closed, and there are no knock rules. -/
def RulesetConfig.Knockless (c : RulesetConfig) : Prop := c.sshAllowlistOnly = true ∧ c.knock = none

end Recorded

/-! ## How the knock rules are lost -/

section Knockless

variable {κ : Type} {H : Host κ} {cfg : AgentConfig} {knock : SshKnock} {entries : List Entry} {now : DateTime}
variable {acc : RulesetConfig}

/-- The top rung has the knock rules that are wanted. -/
theorem rungs_of_knock {want : RulesetConfig} (h : want.knock.isSome = true) :
    ∃ rest, rungs want = (true, want.forwardAllowlistOnly) :: rest := by
  unfold rungs
  rw [h]
  cases want.forwardAllowlistOnly <;> exact ⟨_, rfl⟩

/-- A climb that ends without them has passed the top rung, where they were refused. -/
theorem Climbed.refusedKnock {want : RulesetConfig} {c : Bool × Bool} {os : List Offer}
    (h : Climbed H want entries (rungs want) (some c) os) (hwant : want.knock.isSome = true)
    (hless : (candidate want c.1 c.2).knock = none) : ∃ o ∈ os, o.RefusedKnock := by
  have htop (gate : Bool) : (candidate want true gate).knock = want.knock := candidate_knock want true gate
  obtain ⟨rest, hrungs⟩ := rungs_of_knock hwant
  rw [hrungs] at h
  cases h with
  | accepted happly =>
    rw [htop] at hless
    rw [hless] at hwant
    cases hwant
  | refused happly hrest =>
    refine ⟨_, List.mem_cons_self .., ?_, rfl⟩
    rw [htop]
    exact hwant

/-- The kernel's ruleset is `acc` still, or the backend has refused the knock rules that it lacks. -/
def Accounted (acc : RulesetConfig) (w : World (κ × List Offer)) : Prop :=
  w.accepted = acc ∨ (w.accepted.Knockless → ∃ o ∈ w.host.2, o.RefusedKnock)

theorem accounted_applyRuleset {flags : RulesetFlags} :
    Preserves (Accounted acc) (applyRuleset H.recorded ((cfg.withKnock knock).rulesetWith flags) entries) := by
  intro w hw
  let want := (cfg.withKnock knock).rulesetWith flags
  obtain ⟨os, hlog, hclimbed⟩ : ∃ os, (climb H.recorded want entries (rungs want) w.host).2.2 = w.host.2 ++ os ∧
      Climbed H want entries (rungs want) (climb H.recorded want entries (rungs want) w.host).1 os :=
    climb_recorded (rungs want) w.host.1 w.host.2
  have hends := applyRuleset_ladder (H := H.recorded) want entries w
  have hhost : (applyRuleset H.recorded want entries w).2.host.2 = w.host.2 ++ os := by
    rw [Rebuilds.host_eq hends]
    exact hlog
  unfold Accounted
  rw [hhost]
  -- No rung was taken, or one that has the knock rules unless the backend refused them on a rung above.
  cases hend : ladder H.recorded want entries w.host with
  | mk end_ k =>
    unfold wp at hends
    rw [hend] at hends
    cases end_ with
    | none =>
      rw [hends.1]
      refine hw.imp_right fun h hless => ?_
      obtain ⟨o, ho, hrefused⟩ := h hless
      exact ⟨o, List.mem_append_left _ ho, hrefused⟩
    | some c =>
      rw [hends.1]
      refine .inr fun hless => ?_
      have hwant : want.knock.isSome = true := by
        have hkept : want.knock = some knock := RulesetConfig.knock_of_closed hless.1
        rw [hkept]
        rfl
      have hclimb : Climbed H want entries (rungs want) (some c) os := by
        have hfst : (climb H.recorded want entries (rungs want) w.host).1 = some c := congrArg Prod.fst hend
        rw [← hfst]
        exact hclimbed
      obtain ⟨o, ho, hrefused⟩ := hclimb.refusedKnock hwant hless.2
      exact ⟨o, List.mem_append_right _ ho, hrefused⟩

/-- What neither loads a ruleset nor writes on the record. -/
theorem accounted_of_keeps {ε α : Type} {m : Act (World (κ × List Offer)) ε α}
    (h : Keeps (fun w => (w.accepted, w.host.2)) m) : Preserves (Accounted acc) m := by
  refine h.preserves fun w w' heq hw => ?_
  obtain ⟨haccepted, hrecord⟩ := Prod.mk.inj heq
  unfold Accounted
  rw [haccepted, hrecord]
  exact hw

theorem accounted_reapplyRuleset {flags : RulesetFlags} :
    Preserves (Accounted acc) (reapplyRuleset H.recorded (cfg.withKnock knock) flags entries) :=
  preserves_bind (preserves_mapErr accounted_applyRuleset) fun _ =>
    preserves_bind (accounted_of_keeps fun _ => rfl) fun _ => preserves_pure

theorem accounted_onStore {ε α : Type} {f : State → α × State} :
    Preserves (Accounted acc) (onStore f : Act (World (κ × List Offer)) ε α) := accounted_of_keeps fun _ => rfl

theorem accounted_callSave : Preserves (Accounted acc) (callSave H.recorded) := accounted_of_keeps fun _ => rfl

theorem accounted_callAdd {entry : Entry} : Preserves (Accounted acc) (callAdd H.recorded entry) :=
  accounted_of_keeps fun _ => rfl

theorem accounted_callRemove {target : IpNet} : Preserves (Accounted acc) (callRemove H.recorded target) :=
  accounted_of_keeps fun _ => rfl

theorem accounted_rejectIf {c : Bool} {e : ApiError} :
    Preserves (Accounted acc) (rejectIf c e : Act (World (κ × List Offer)) ApiError Unit) :=
  preserves_onlyIf preserves_fail

theorem accounted_commit {f : State → State} :
    Preserves (Accounted acc) (commit H.recorded cfg f) :=
  preserves_bind accounted_onStore fun _ => preserves_bind accounted_callSave fun _ =>
    preserves_bind preserves_get fun _ => preserves_pure

theorem accounted_commitPorts {ports : List PublicPort} :
    Preserves (Accounted acc) (commitPorts H.recorded cfg ports) :=
  preserves_bind accounted_onStore fun _ => preserves_bind accounted_callSave fun _ =>
    preserves_bind preserves_get fun _ => preserves_pure

theorem accounted_setSshExposure {on : Bool} :
    Preserves (Accounted acc) (setSshExposure H.recorded (cfg.withKnock knock) on now) := by
  refine preserves_bind preserves_get fun w => preserves_bind accounted_rejectIf fun _ => ?_
  dsimp only
  split
  · exact preserves_fail
  · refine preserves_bind accounted_reapplyRuleset fun applied => ?_
    split
    · exact preserves_bind accounted_reapplyRuleset fun _ => preserves_fail
    · exact accounted_commit

theorem accounted_setForwardExposure {on : Bool} :
    Preserves (Accounted acc) (setForwardExposure H.recorded (cfg.withKnock knock) on) := by
  refine preserves_bind preserves_get fun w => preserves_bind accounted_reapplyRuleset fun applied => ?_
  split
  · exact preserves_fail
  · exact accounted_commit

theorem accounted_addPublicPort {req : PublicPortRequest} :
    Preserves (Accounted acc) (addPublicPort H.recorded (cfg.withKnock knock) req) := by
  refine preserves_bind accounted_rejectIf fun _ => preserves_bind preserves_get fun w => ?_
  dsimp only
  split
  · exact accounted_commitPorts
  · exact preserves_bind accounted_rejectIf fun _ =>
      preserves_bind accounted_reapplyRuleset fun _ => accounted_commitPorts

theorem accounted_removePublicPort {proto : ForwardProto} {range : PortRange} :
    Preserves (Accounted acc) (removePublicPort H.recorded (cfg.withKnock knock) proto range) :=
  preserves_bind preserves_get fun _ => preserves_bind accounted_rejectIf fun _ =>
    preserves_bind accounted_reapplyRuleset fun _ => accounted_commitPorts

theorem accounted_rebuild : Preserves (Accounted acc) (rebuild H.recorded (cfg.withKnock knock)) := by
  refine preserves_bind preserves_get fun w =>
    preserves_bind (preserves_attempt accounted_applyRuleset) fun r => ?_
  split
  · exact accounted_of_keeps fun _ => rfl
  · exact preserves_pure

theorem accounted_allow {who : DeviceId} {req : AllowRequest} {id : EntryId} :
    Preserves (Accounted acc) (allow H.recorded who req now id) :=
  preserves_bind accounted_onStore fun _ => preserves_bind accounted_callSave fun _ =>
    preserves_bind (preserves_mapErr accounted_callAdd) fun _ => preserves_pure

theorem accounted_revoke {req : RevokeRequest} : Preserves (Accounted acc) (revoke H.recorded req) := by
  refine preserves_bind preserves_get fun w => ?_
  split
  · exact preserves_fail
  · exact preserves_bind accounted_onStore fun _ => preserves_bind accounted_rejectIf fun _ =>
      preserves_bind accounted_callSave fun _ => preserves_mapErr accounted_callRemove

theorem accounted_addMissing {target : IpNet} :
    Preserves (Accounted acc) (addMissing H.recorded entries target) := by
  unfold addMissing
  split
  · exact preserves_ignore accounted_callAdd
  · exact preserves_pure

theorem accounted_reconcileTick {O : HashOrder} :
    Preserves (Accounted acc) (reconcileTick H.recorded (cfg.withKnock knock) O now) := by
  have hprune : Preserves (Accounted acc) (pruneAndSnapshot H.recorded now) :=
    preserves_bind accounted_onStore fun _ =>
      preserves_bind (preserves_onlyIf (preserves_ignore accounted_callSave)) fun _ =>
        preserves_bind preserves_get fun _ => preserves_pure
  refine preserves_bind hprune fun entries =>
    preserves_bind (preserves_attempt (accounted_of_keeps fun _ => rfl)) fun r => ?_
  split
  · exact preserves_bind (preserves_forEach (fun _ => accounted_addMissing) _) fun _ =>
      preserves_forEach (fun _ => preserves_ignore accounted_callRemove) _
  · exact accounted_rebuild

theorem accounted_afterEvent {w : World (κ × List Offer)} (h : Accounted acc w) (e : Event) :
    Accounted acc (afterEvent H.recorded (cfg.withKnock knock) w e) := by
  cases e with
  | request r now =>
    cases r with
    | allow who req id => exact accounted_allow w h
    | revoke req => exact accounted_revoke w h
    | setSshExposure on => exact accounted_setSshExposure w h
    | setForwardExposure on => exact accounted_setForwardExposure w h
    | addPublicPort req => exact accounted_addPublicPort w h
    | removePublicPort proto range => exact accounted_removePublicPort w h
  | tick O now => exact accounted_reconcileTick w h
  | rebuild => exact accounted_rebuild w h

/-- An event that loses the knock rules of a closed SSH, or closes it without them, has had knock rules
refused by the backend. -/
theorem refusedKnock_of_knockless {w : World κ} {e : Event} (hbefore : ¬w.accepted.Knockless)
    (hafter : (afterEvent H (cfg.withKnock knock) w e).accepted.Knockless) :
    ∃ o ∈ offers H (cfg.withKnock knock) w e, o.RefusedKnock := by
  have hsame : afterEvent H (cfg.withKnock knock) w e =
      (afterEvent H.recorded (cfg.withKnock knock) w.recorded e).unrecorded :=
    afterEvent_unrecorded H (cfg.withKnock knock) w.recorded e
  have haccounted : Accounted w.accepted (afterEvent H.recorded (cfg.withKnock knock) w.recorded e) :=
    accounted_afterEvent (.inl rfl) e
  rw [hsame] at hafter
  cases haccounted with
  | inl hkept => exact (hbefore (hkept ▸ hafter)).elim
  | inr hrefused => exact hrefused hafter

end Knockless

end Ipgate
