-- SUMMARY: Runs of requests and reconcile ticks: what each can do to the kernel's ruleset and the stored settings.
import Ipgate.Lib.Lts
import Ipgate.Agent.Nft.Policy
import Ipgate.Agent.Api.Handlers

/-!
# Settings and the kernel

The requests that change the ruleset hold the store lock from the rebuild to the
commit, so a run is a sequence of whole requests and ticks. What one of them can
do to the kernel's ruleset, the stored settings and the reported state is said
once, in `step_outcome`; the properties of runs are read off from it.
-/

namespace Ipgate

open Net Act

/-! ## Events -/

inductive Request where
  | allow (who : DeviceId) (req : AllowRequest) (id : EntryId)
  | revoke (req : RevokeRequest)
  | setSshExposure (allowlistOnly : Bool)
  | setForwardExposure (allowlistOnly : Bool)
  | addPublicPort (req : PublicPortRequest)
  | removePublicPort (proto : ForwardProto) (range : PortRange)

inductive Event where
  | request (r : Request) (now : DateTime)
  /-- A round of the reconcile loop, with the order its hash sets happen to have. -/
  | tick (O : HashOrder) (now : DateTime)
  /-- The rebuild of a round that could not read the kernel. -/
  | rebuild

section System

variable {κ : Type} (H : Host κ) (cfg : AgentConfig)

/-- The world after a request, whatever it returns. -/
def afterRequest (w : World κ) (now : DateTime) : Request → World κ
  | .allow who req id => (allow H who req now id w).2
  | .revoke req => (revoke H req w).2
  | .setSshExposure on => (setSshExposure H cfg on now w).2
  | .setForwardExposure on => (setForwardExposure H cfg on w).2
  | .addPublicPort req => (addPublicPort H cfg req w).2
  | .removePublicPort proto range => (removePublicPort H cfg proto range w).2

def afterEvent (w : World κ) : Event → World κ
  | .request r now => afterRequest H cfg w now r
  | .tick O now => (reconcileTick H cfg O now w).2
  | .rebuild => (Ipgate.rebuild H cfg w).2

/-- Every event is possible in every state. -/
def eventStep (w : World κ) (e : Event) : Option (World κ) := some (afterEvent H cfg w e)

end System

/-! ## The ruleset the store asks for -/

section Outcome

variable {κ : Type} {H : Host κ} {cfg : AgentConfig} {w w' w'' : World κ} {k : κ}
variable {want : RulesetConfig} {c : Bool × Bool} {entries : List Entry} {reason : String}

/-- The ruleset configuration that the stored settings ask for. -/
def wanted (cfg : AgentConfig) (w : World κ) : RulesetConfig := cfg.rulesetWith w.store.rulesetFlags

/-- The kernel's ruleset is the wanted one, except that the gate or the knock rules
may be missing, and these are reported as they are. -/
structure Installed (want : RulesetConfig) (live : Live) (acc : RulesetConfig) : Prop where
  sshPort : acc.sshPort = want.sshPort
  sshAllowlistOnly : acc.sshAllowlistOnly = want.sshAllowlistOnly
  publicTcp : acc.publicTcp = want.publicTcp
  publicUdp : acc.publicUdp = want.publicUdp
  gate : acc.forwardAllowlistOnly = want.forwardAllowlistOnly ∨ acc.forwardAllowlistOnly = false
  knock : acc.knock = want.knock ∨ acc.knock = none
  liveGate : live.gate = acc.forwardAllowlistOnly
  liveKnock : live.knock = acc.knock.isSome

theorem climb_mem {cs : List (Bool × Bool)} {k' : κ} (h : climb H want entries cs k = (some c, k')) : c ∈ cs := by
  induction cs generalizing k with
  | nil => cases h
  | cons d ds ih =>
    unfold climb at h
    split at h
    · cases h
      exact List.mem_cons_self ..
    · exact List.mem_cons_of_mem d (ih h)

/-- What is reported about the parts of an accepted ruleset. -/
def report (want : RulesetConfig) (c : Bool × Bool) (reason : String) : Applied :=
  ⟨gateState reason want.forwardAllowlistOnly c.2, gateState reason want.knock.isSome c.1⟩

theorem gateState_isActive (reason : String) (x y : Bool) : (gateState reason x y).isActive = (x && y) := by
  cases x <;> cases y <;> rfl

/-- A rung of the ladder installs the ruleset it is for. -/
theorem installed_candidate (h : c ∈ rungs want) :
    Installed want (Live.record (report want c reason)) (candidate want c.1 c.2) where
  sshPort := rfl
  sshAllowlistOnly := rfl
  publicTcp := rfl
  publicUdp := rfl
  gate := by
    cases hc : c.2 with
    | false => exact .inr rfl
    | true => exact .inl ((mem_rungs h).2 hc).symm
  knock := by
    rw [candidate_knock]
    cases c.1 with
    | false => exact .inr rfl
    | true => exact .inl rfl
  liveGate := by
    have hgate := (mem_rungs h).2
    simp only [Live.record, report, gateState_isActive, candidate]
    cases hc : c.2 <;> simp_all
  liveKnock := by
    have hknock := (mem_rungs h).1
    simp only [Live.record, report, gateState_isActive, candidate_knock]
    cases hc : c.1 <;> simp_all

/-! ## Rebuilding with settings -/

/-- The world after a rebuild that ended on a rung. -/
def install (want : RulesetConfig) (c : Bool × Bool) (reason : String) (k : κ) (w : World κ) : World κ :=
  { w with host := k, accepted := candidate want c.1 c.2, live := Live.record (report want c reason) }

theorem wp_reapplyRuleset {flags : RulesetFlags} : wp (reapplyRuleset H cfg flags entries)
    (fun r w' => match ladder H (cfg.rulesetWith flags) entries w.host with
      | (some c, k) => c ∈ rungs (cfg.rulesetWith flags) ∧
          ∃ reason, r = .ok (report (cfg.rulesetWith flags) c reason) ∧
            w' = install (cfg.rulesetWith flags) c reason k w
      | (none, k) => (∃ e, r = .error (nftFailure e)) ∧ w' = { w with host := k }) w := by
  unfold reapplyRuleset
  rw [wp_bind, wp_mapErr]
  apply wp_mono (applyRuleset_ladder (cfg.rulesetWith flags) entries w)
  intro r w' h
  rcases hladder : ladder H (cfg.rulesetWith flags) entries w.host with ⟨_ | c, k⟩
  · rw [hladder] at h
    obtain ⟨rfl, e, rfl⟩ := h
    exact ⟨⟨e, rfl⟩, rfl⟩
  · rw [hladder] at h
    obtain ⟨rfl, reason, rfl⟩ := h
    exact ⟨climb_mem hladder, reason, rfl, rfl⟩

theorem wp_rebuild : wp (rebuild H cfg)
    (fun _ w' => match ladder H (wanted cfg w) w.store.entries w.host with
      | (some c, k) => c ∈ rungs (wanted cfg w) ∧ ∃ reason, w' = install (wanted cfg w) c reason k w
      | (none, k) => w' = { w with host := k }) w := by
  simp only [rebuild, wp_bind, wp_get, andThen_ok, wp_attempt]
  apply wp_mono (applyRuleset_ladder (cfg.rulesetWith w.store.rulesetFlags) w.store.entries w)
  intro r w' h
  rcases hladder : ladder H (wanted cfg w) w.store.entries w.host with ⟨_ | c, k⟩
  · rw [show ladder H (cfg.rulesetWith w.store.rulesetFlags) w.store.entries w.host = (none, k) from hladder] at h
    obtain ⟨rfl, e, rfl⟩ := h
    exact rfl
  · rw [show ladder H (cfg.rulesetWith w.store.rulesetFlags) w.store.entries w.host = (some c, k) from hladder] at h
    obtain ⟨rfl, reason, rfl⟩ := h
    exact ⟨climb_mem hladder, reason, rfl⟩

/-! ## What an event can do -/

/-- No public TCP range covers the SSH port. -/
def Uncovered (cfg : AgentConfig) (c : RulesetConfig) : Prop :=
  ∀ r ∈ c.publicTcp, r.contains cfg.sshPort = false

/-- An event that leaves SSH closed leaves it uncovered, if it was. -/
def Guarded (cfg : AgentConfig) (w w' : World κ) : Prop :=
  w'.store.sshAllowlistOnly = true →
    (w.store.sshAllowlistOnly = true → Uncovered cfg (wanted cfg w)) → Uncovered cfg (wanted cfg w')

/-- The event changed nothing of the ruleset, or installed what is wanted now. -/
inductive Settles (cfg : AgentConfig) (w w' : World κ) : Prop where
  | kept (hssh : w'.store.sshAllowlistOnly = w.store.sshAllowlistOnly)
      (hwant : wanted cfg w' = wanted cfg w) (hacc : w'.accepted = w.accepted) (hlive : w'.live = w.live)
  | installed (h : Installed (wanted cfg w') w'.live w'.accepted) (hguard : Guarded cfg w w')

/-- The kernel closed SSH and the store has it open. -/
structure Stuck (w w' : World κ) : Prop where
  wasOpen : w.store.sshAllowlistOnly = false
  store : w'.store = w.store
  closed : w'.accepted.sshAllowlistOnly = true

/-- The request to close SSH passes its checks, the kernel takes the new table
without the knock rules only, and then refuses every table for the stored settings. -/
def RestoreRefused (H : Host κ) (cfg : AgentConfig) (w : World κ) (on : Bool) (now : DateTime) : Prop :=
  let flags := w.store.rulesetFlags.withSsh on
  on = true ∧ w.store.sshAllowlistOnly = false ∧ w.store.entries.any (fun e => !e.isExpired now) = true ∧
    cfg.publicPortCoveringSsh flags = none ∧ cfg.sshKnock.isSome = true ∧
    ∃ gate k, ladder H (cfg.rulesetWith flags) w.store.entries w.host = (some (false, gate), k) ∧
      (ladder H (wanted cfg w) w.store.entries k).1 = none

theorem wp_saveStore : wp (saveStore H) (fun _ w' => ∃ k, w' = { w with host := k }) w := ⟨_, rfl⟩

/-- Committing changes the store even when it cannot be saved. -/
theorem wp_commit {f : State → State} : wp (commit H cfg f)
    (fun _ w' => ∃ k, w' = { w with store := f w.store, host := k }) w := by
  unfold commit
  rw [wp_bind, onStore, wp_update, andThen_ok, wp_bind]
  apply wp_mono wp_saveStore
  rintro r _ ⟨k, rfl⟩
  cases r <;> exact ⟨k, rfl⟩

theorem wp_commitPorts {ports : List PublicPort} : wp (commitPorts H cfg ports)
    (fun _ w' => ∃ k, w' = { w with store := w.store.setPublicPorts ports, host := k }) w := by
  unfold commitPorts
  rw [wp_bind, onStore, wp_update, andThen_ok, wp_bind]
  apply wp_mono wp_saveStore
  rintro r _ ⟨k, rfl⟩
  cases r <;> exact ⟨k, rfl⟩

theorem Settles.refl (w : World κ) : Settles cfg w w := .kept rfl rfl rfl rfl

/-- The settings, the reported state and the kernel's ruleset. -/
def settings (w : World κ) : RulesetFlags × Live × RulesetConfig :=
  (w.store.rulesetFlags, w.live, w.accepted)

/-- What leaves these alone settles. -/
theorem Settles.of_settings (h : settings w' = settings w) : Settles cfg w w' := by
  obtain ⟨hflags, hrest⟩ := Prod.mk.inj h
  obtain ⟨hlive, hacc⟩ := Prod.mk.inj hrest
  refine .kept (congrArg RulesetFlags.sshAllowlistOnly hflags) ?_ hacc hlive
  rw [wanted, wanted, hflags]

theorem Settles.host (w : World κ) (k : κ) : Settles cfg w { w with host := k } := .kept rfl rfl rfl rfl

theorem guarded_of_store (h : w'.store = w.store) : Guarded cfg w w' := by
  intro hclosed hbefore
  unfold wanted
  rw [h]
  rw [h] at hclosed
  exact hbefore hclosed

/-- Installing what the store asks for settles. -/
theorem settles_install (hc : c ∈ rungs (wanted cfg w)) :
    Settles cfg w (install (wanted cfg w) c reason k w) :=
  .installed (installed_candidate hc) (guarded_of_store rfl)

/-- Installing what new settings ask for, and committing these, settles. -/
theorem settles_commit {flags : RulesetFlags} (hc : c ∈ rungs (cfg.rulesetWith flags))
    (hflags : w'.store.rulesetFlags = flags)
    (hlive : w'.live = (install (cfg.rulesetWith flags) c reason k w).live)
    (hacc : w'.accepted = (install (cfg.rulesetWith flags) c reason k w).accepted)
    (hguard : Guarded cfg w w') : Settles cfg w w' := by
  refine .installed ?_ hguard
  unfold wanted
  rw [hflags, hlive, hacc]
  exact installed_candidate hc

theorem report_knock_rejected {e : String} (h : (report want c reason).knock = .rejected e) :
    want.knock.isSome = true ∧ c.1 = false := by
  simp only [report] at h
  cases hk : want.knock.isSome <;> cases hc : c.1 <;> simp_all [gateState]

theorem knock_rulesetWith_closed {flags : RulesetFlags} :
    (cfg.rulesetWith (flags.withSsh true)).knock = cfg.sshKnock :=
  RulesetConfig.knock_of_closed rfl

theorem knock_rulesetWith_withSsh {on : Bool} {flags : RulesetFlags}
    (h : (cfg.rulesetWith (flags.withSsh on)).knock.isSome = true) : on = true ∧ cfg.sshKnock.isSome = true := by
  cases on with
  | false =>
    rw [RulesetConfig.knock_of_open rfl] at h
    cases h
  | true =>
    rw [knock_rulesetWith_closed] at h
    exact ⟨rfl, h⟩

theorem withSsh_eq_self {s : State} {on : Bool} (h : s.sshAllowlistOnly = on) :
    s.rulesetFlags.withSsh on = s.rulesetFlags := by
  subst h
  rfl

/-- After a rejected knock the stored settings are restored, or the restoration is
refused as well. -/
theorem wp_restore {on : Bool} {now : DateTime} {e : ApiError} {α : Type}
    (hladder : ladder H (cfg.rulesetWith (w.store.rulesetFlags.withSsh on)) w.store.entries w.host = (some c, k))
    (hc : c ∈ rungs (cfg.rulesetWith (w.store.rulesetFlags.withSsh on)))
    (hwant : (cfg.rulesetWith (w.store.rulesetFlags.withSsh on)).knock.isSome = true) (hc₁ : c.1 = false)
    (hany : on = true → w.store.entries.any (fun e => !e.isExpired now) = true)
    (hcover : on = true → cfg.publicPortCoveringSsh (w.store.rulesetFlags.withSsh on) = none) :
    wp (reapplyRuleset H cfg w.store.rulesetFlags w.store.entries)
      (andThen (fun _ => (.fail e : Act (World κ) ApiError α))
        (fun _ w' => (RestoreRefused H cfg w on now → Stuck w w') ∧
          (¬RestoreRefused H cfg w on now → Settles cfg w w')))
      (install (cfg.rulesetWith (w.store.rulesetFlags.withSsh on)) c reason k w) := by
  obtain ⟨rfl, hsome⟩ := knock_rulesetWith_withSsh hwant
  apply wp_mono wp_reapplyRuleset
  intro r w₁ h
  rcases hrestore : ladder H (wanted cfg w) w.store.entries k with ⟨_ | c', k'⟩
  · rw [show ladder H (cfg.rulesetWith w.store.rulesetFlags) w.store.entries
      (install (cfg.rulesetWith (w.store.rulesetFlags.withSsh true)) c reason k w).host = (none, k')
      from hrestore] at h
    obtain ⟨⟨e', rfl⟩, rfl⟩ := h
    refine ⟨fun hr => ⟨hr.2.1, rfl, rfl⟩, fun hr => ?_⟩
    -- With SSH stored as closed, the table that is left is one of the rungs of the stored settings.
    cases hstored : w.store.sshAllowlistOnly with
    | false =>
      refine (hr ⟨rfl, hstored, hany rfl, hcover rfl, hsome, c.2, k, ?_, by rw [hrestore]⟩).elim
      rw [hladder, ← hc₁]
    | true =>
      refine .installed ?_ (guarded_of_store rfl)
      have hwanted : cfg.rulesetWith (w.store.rulesetFlags.withSsh true) = wanted cfg w := by
        rw [withSsh_eq_self hstored, wanted]
      rw [hwanted] at hc ⊢
      exact installed_candidate hc
  · rw [show ladder H (cfg.rulesetWith w.store.rulesetFlags) w.store.entries
      (install (cfg.rulesetWith (w.store.rulesetFlags.withSsh true)) c reason k w).host = (some c', k')
      from hrestore] at h
    obtain ⟨hc', reason', rfl, rfl⟩ := h
    refine ⟨fun hr => ?_, fun _ => .installed (installed_candidate hc') (guarded_of_store rfl)⟩
    obtain ⟨-, -, -, -, -, gate, k₁, hr, hnone⟩ := hr
    rw [hladder] at hr
    obtain ⟨-, rfl⟩ := Prod.mk.inj hr
    rw [hrestore] at hnone
    cases hnone

theorem wp_setSshExposure {on : Bool} {now : DateTime} : wp (setSshExposure H cfg on now)
    (fun _ w' => (RestoreRefused H cfg w on now → Stuck w w') ∧
      (¬RestoreRefused H cfg w on now → Settles cfg w w')) w := by
  simp only [setSshExposure, wp_bind, wp_get, andThen_ok, rejectIf, wp_onlyIf, wp_fail, andThen_error]
  refine ⟨fun hempty => ?_, fun hempty => ?_⟩
  · refine ⟨fun hr => ?_, fun _ => .refl w⟩
    obtain ⟨rfl, -, hany, -⟩ := hr
    simp [hany] at hempty
  -- Before the ladder the checks can only refuse, and the restoration cannot be at stake.
  cases hcover : if on then cfg.publicPortCoveringSsh (w.store.rulesetFlags.withSsh on) else none with
  | some p =>
    refine ⟨fun hr => ?_, fun _ => .refl w⟩
    obtain ⟨rfl, -, -, hnone, -⟩ := hr
    simp [hnone] at hcover
  | none =>
    simp only [wp_bind]
    apply wp_mono wp_reapplyRuleset
    intro r w₁ h
    rcases hladder : ladder H (cfg.rulesetWith (w.store.rulesetFlags.withSsh on)) w.store.entries w.host
      with ⟨_ | c, k⟩
    · rw [hladder] at h
      obtain ⟨⟨e, rfl⟩, rfl⟩ := h
      refine ⟨fun hr => ?_, fun _ => .host w k⟩
      obtain ⟨-, -, -, -, -, gate, k', hr, -⟩ := hr
      rw [hladder] at hr
      cases hr
    · rw [hladder] at h
      obtain ⟨hc, reason, rfl, rfl⟩ := h
      rw [andThen_ok]
      split
      · next e hknock =>
        -- The accepted table lacks the knock rules, and the former settings are tried again.
        obtain ⟨hwant, hc₁⟩ := report_knock_rejected hknock
        rw [wp_bind]
        refine wp_restore hladder hc hwant hc₁ ?_ ?_
        · rintro rfl
          simpa using hempty
        · rintro rfl
          simpa using hcover
      · next hknock =>
        apply wp_mono wp_commit
        rintro _ w₂ ⟨k₂, rfl⟩
        refine ⟨fun hr => ?_, fun _ => ?_⟩
        · obtain ⟨rfl, -, -, -, hsome, gate, k', hr, -⟩ := hr
          rw [hladder] at hr
          obtain ⟨hc', -⟩ := Prod.mk.inj hr
          cases hc'
          refine (hknock reason ?_).elim
          unfold report
          rw [knock_rulesetWith_closed, hsome]
          rfl
        · refine settles_commit (c := c) (k := k) hc rfl rfl rfl ?_
          intro hclosed _
          obtain rfl : on = true := hclosed
          rw [if_pos rfl, publicPortCoveringSsh_eq_none_iff] at hcover
          exact hcover

theorem gate_rejected {e : String} (h : (report want c reason).gate = .rejected e) :
    want.forwardAllowlistOnly = true ∧ c.2 = false := by
  simp only [report] at h
  cases hk : want.forwardAllowlistOnly <;> cases hc : c.2 <;> simp_all [gateState]

theorem wp_setForwardExposure {on : Bool} : wp (setForwardExposure H cfg on)
    (fun _ w' => Settles cfg w w') w := by
  simp only [setForwardExposure, wp_bind, wp_get, andThen_ok]
  apply wp_mono wp_reapplyRuleset
  intro r w₁ h
  rcases hladder : ladder H (cfg.rulesetWith (w.store.rulesetFlags.withForward on)) w.store.entries w.host
    with ⟨_ | c, k⟩
  · rw [hladder] at h
    obtain ⟨⟨e, rfl⟩, rfl⟩ := h
    exact .host w k
  · rw [hladder] at h
    obtain ⟨hc, reason, rfl, rfl⟩ := h
    rw [andThen_ok]
    split
    · next e hgate =>
      -- Without the gate the new table is one for the stored settings too.
      obtain ⟨-, hc₂⟩ := gate_rejected hgate
      have h : Installed _ (Live.record (report _ c reason)) (candidate _ c.1 c.2) := installed_candidate hc
      refine .installed ⟨rfl, rfl, rfl, rfl, .inr hc₂, h.knock, h.liveGate, h.liveKnock⟩ (guarded_of_store rfl)
    · apply wp_mono wp_commit
      rintro _ w₂ ⟨k₂, rfl⟩
      refine settles_commit (c := c) (k := k) hc rfl rfl rfl ?_
      intro hclosed hbefore
      exact hbefore hclosed

/-! ## Public ports -/

/-- A note changes no selection of ports by protocol. -/
theorem setNote_select (sel : ForwardProto → Bool) (proto : ForwardProto) (range : PortRange) (note : String)
    (ports : List PublicPort) :
    ((setNote proto range note ports).filter fun p => sel p.proto).map PublicPort.ports =
      (ports.filter fun p => sel p.proto).map PublicPort.ports := by
  induction ports with
  | nil => rfl
  | cons p ps ih =>
    unfold setNote
    split
    · cases hp : sel p.proto <;> simp [hp]
    · cases hp : sel p.proto <;> simp [hp, ih]

theorem rulesetWith_setNote (flags : RulesetFlags) {proto : ForwardProto} {range : PortRange} {note : String} :
    cfg.rulesetWith (flags.withPorts (setNote proto range note flags.publicPorts)) = cfg.rulesetWith flags := by
  simp only [AgentConfig.rulesetWith, RulesetFlags.withPorts, setNote_select (fun q => decide (q ≠ .udp)),
    setNote_select (fun q => decide (q ≠ .tcp))]

/-- Rebuilding with other public ports, and committing these, settles if they leave
a closed SSH uncovered. -/
theorem wp_reapply_commitPorts {ports : List PublicPort}
    (hguard : w.store.sshAllowlistOnly = true → Uncovered cfg (wanted cfg w) →
      Uncovered cfg (cfg.rulesetWith (w.store.rulesetFlags.withPorts ports))) :
    wp (reapplyRuleset H cfg (w.store.rulesetFlags.withPorts ports) w.store.entries)
      (andThen (fun _ => commitPorts H cfg ports) (fun _ w' => Settles cfg w w')) w := by
  apply wp_mono wp_reapplyRuleset
  intro r w₁ h
  rcases hladder : ladder H (cfg.rulesetWith (w.store.rulesetFlags.withPorts ports)) w.store.entries w.host
    with ⟨_ | c, k⟩
  · rw [hladder] at h
    obtain ⟨⟨e, rfl⟩, rfl⟩ := h
    exact .host w k
  · rw [hladder] at h
    obtain ⟨hc, reason, rfl, rfl⟩ := h
    rw [andThen_ok]
    apply wp_mono wp_commitPorts
    rintro _ w₂ ⟨k₂, rfl⟩
    refine settles_commit (c := c) (k := k) hc rfl rfl rfl ?_
    intro hclosed hbefore
    exact hguard hclosed (hbefore hclosed)

theorem wp_addPublicPort {req : PublicPortRequest} : wp (addPublicPort H cfg req)
    (fun _ w' => Settles cfg w w') w := by
  simp only [addPublicPort, wp_bind, rejectIf, wp_onlyIf, wp_ite, wp_fail, andThen_error, andThen_ok, wp_get]
  refine ⟨fun _ => .refl w, fun _ => ⟨fun _ => ?_, fun _ => ⟨fun _ => .refl w, fun hcover => ?_⟩⟩⟩
  · apply wp_mono wp_commitPorts
    rintro _ w₁ ⟨k, rfl⟩
    exact .kept rfl (rulesetWith_setNote w.store.rulesetFlags) rfl rfl
  · apply wp_reapply_commitPorts
    intro hclosed hbefore r hr
    simp only [AgentConfig.rulesetWith, RulesetFlags.withPorts, List.filter_append, List.map_append,
      List.mem_append] at hr
    rcases hr with hr | hr | hr
    · exact hbefore r (List.mem_append.mpr (.inl hr))
    · exact hbefore r (List.mem_append.mpr (.inr hr))
    · rw [List.mem_map] at hr
      obtain ⟨p, hp, rfl⟩ := hr
      obtain ⟨hp, hproto⟩ := List.mem_filter.mp hp
      obtain rfl := List.mem_singleton.mp hp
      have hnot : cfg.coversSsh req.proto req.ports = false := by
        simpa [State.rulesetFlags, RulesetFlags.withPorts, hclosed] using hcover
      exact coversSsh_eq_false_iff.mp hnot (of_decide_eq_true hproto)

theorem wp_removePublicPort {proto : ForwardProto} {range : PortRange} :
    wp (removePublicPort H cfg proto range) (fun _ w' => Settles cfg w w') w := by
  simp only [removePublicPort, wp_bind, rejectIf, wp_onlyIf, wp_fail, andThen_error, andThen_ok, wp_get]
  refine ⟨fun _ => .refl w, fun _ => wp_reapply_commitPorts ?_⟩
  intro hclosed hbefore r hr
  simp only [AgentConfig.rulesetWith, RulesetFlags.withPorts, List.mem_append, List.mem_map, List.mem_filter] at hr
  rcases hr with hr | ⟨p, ⟨⟨hp, -⟩, hproto⟩, rfl⟩
  · exact hbefore r (List.mem_append.mpr (.inl hr))
  · exact hbefore _ (List.mem_append.mpr (.inr (List.mem_map.mpr ⟨p, List.mem_filter.mpr ⟨hp, hproto⟩, rfl⟩)))

/-! ## The other events -/

theorem keeps_callAdd {entry : Entry} : Keeps settings (callAdd H entry) := fun _ => rfl

theorem keeps_callRemove {target : IpNet} : Keeps settings (callRemove H target) := fun _ => rfl

theorem keeps_callList : Keeps settings (callList H) := fun _ => rfl

theorem keeps_callSave : Keeps settings (callSave H) := fun _ => rfl

theorem keeps_onStore {ε α : Type} {f : State → α × State}
    (h : ∀ s, (f s).2.rulesetFlags = s.rulesetFlags) : Keeps settings (onStore f : Act (World κ) ε α) := by
  intro w
  simp [settings, onStore, update, h]

theorem keeps_rejectIf {c : Bool} {e : ApiError} :
    Keeps settings (rejectIf c e : Act (World κ) ApiError Unit) :=
  keeps_onlyIf keeps_fail

theorem keeps_allow {who : DeviceId} {req : AllowRequest} {now : DateTime} {id : EntryId} :
    Keeps settings (allow H who req now id) :=
  keeps_bind (keeps_onStore fun _ => rfl) fun _ =>
    keeps_bind (keeps_mapErr keeps_callSave) fun _ =>
      keeps_bind (keeps_mapErr keeps_callAdd) fun _ => keeps_pure

theorem keeps_revoke {req : RevokeRequest} : Keeps settings (revoke H req) := by
  refine keeps_bind keeps_get fun w => ?_
  split
  · exact keeps_fail
  · exact keeps_bind (keeps_onStore fun _ => State.revokeByTarget_rulesetFlags) fun _ =>
      keeps_bind keeps_rejectIf fun _ =>
        keeps_bind (keeps_mapErr keeps_callSave) fun _ => keeps_mapErr keeps_callRemove

theorem keeps_pruneAndSnapshot {now : DateTime} : Keeps settings (pruneAndSnapshot H now) := by
  refine keeps_bind (keeps_onStore fun _ => State.pruneExpired_rulesetFlags) fun removed => ?_
  exact keeps_bind (keeps_onlyIf (keeps_ignore keeps_callSave)) fun _ =>
    keeps_bind keeps_get fun _ => keeps_pure

theorem keeps_addMissing {target : IpNet} : Keeps settings (addMissing H entries target) := by
  unfold addMissing
  split
  · exact keeps_ignore keeps_callAdd
  · exact keeps_pure

theorem settles_rebuild : wp (rebuild H cfg) (fun _ w' => Settles cfg w w') w := by
  apply wp_mono wp_rebuild
  intro r w' h
  rcases hladder : ladder H (wanted cfg w) w.store.entries w.host with ⟨_ | c, k⟩
  · rw [hladder] at h
    obtain rfl := h
    exact .host w k
  · rw [hladder] at h
    obtain ⟨hc, reason, rfl⟩ := h
    exact settles_install hc

/-- Settling only looks at the settings of the world before. -/
theorem Settles.of_eq (h : settings w'' = settings w) (hset : Settles cfg w'' w') : Settles cfg w w' := by
  obtain ⟨hflags, hrest⟩ := Prod.mk.inj h
  obtain ⟨hlive, hacc⟩ := Prod.mk.inj hrest
  have hssh : w''.store.sshAllowlistOnly = w.store.sshAllowlistOnly :=
    congrArg RulesetFlags.sshAllowlistOnly hflags
  have hwant : wanted cfg w'' = wanted cfg w := by rw [wanted, wanted, hflags]
  cases hset with
  | kept hssh' hwant' hacc' hlive' =>
    exact .kept (hssh'.trans hssh) (hwant'.trans hwant) (hacc'.trans hacc) (hlive'.trans hlive)
  | installed hinst hguard =>
    refine .installed hinst fun hclosed hbefore => hguard hclosed ?_
    rw [hssh, hwant]
    exact hbefore

theorem wp_tick {O : HashOrder} {now : DateTime} : wp (reconcileTick H cfg O now)
    (fun _ w' => Settles cfg w w') w := by
  unfold reconcileTick
  rw [wp_bind]
  apply wp_mono (Q := fun _ w₁ => settings w₁ = settings w) (keeps_pruneAndSnapshot w)
  intro r w₁ h₁
  cases r with
  | error e => exact .of_settings h₁
  | ok entries =>
    rw [andThen_ok, wp_bind, wp_attempt]
    apply wp_mono (Q := fun _ w₂ => settings w₂ = settings w₁) (keeps_callList w₁)
    intro r w₂ h₂
    rw [andThen_ok]
    cases r with
    | error e => exact wp_mono settles_rebuild fun _ _ h => h.of_eq (h₂.trans h₁)
    | ok kernel =>
      have hloops : Keeps settings (do
          forEach (addMissing H entries) (diff O entries kernel now).missingInKernel
          forEach (removeStale H) (diff O entries kernel now).staleInKernel) :=
        keeps_bind (keeps_forEach (fun _ => keeps_addMissing) _) fun _ =>
          keeps_forEach (fun _ => keeps_ignore keeps_callRemove) _
      exact .of_settings ((hloops w₂).trans (h₂.trans h₁))

/-- The one event that can leave the kernel's ruleset and the store apart. -/
def Refused (H : Host κ) (cfg : AgentConfig) (w : World κ) : Event → Prop
  | .request (.setSshExposure on) now => RestoreRefused H cfg w on now
  | _ => False

/-- What one event does: a refused restoration leaves kernel and store apart, every
other event settles. -/
theorem event_outcome (H : Host κ) (cfg : AgentConfig) (w : World κ) (e : Event) :
    (Refused H cfg w e → Stuck w (afterEvent H cfg w e)) ∧
      (¬Refused H cfg w e → Settles cfg w (afterEvent H cfg w e)) := by
  cases e with
  | request r now =>
    cases r with
    | allow who req id => exact ⟨False.elim, fun _ => .of_settings (keeps_allow w)⟩
    | revoke req => exact ⟨False.elim, fun _ => .of_settings (keeps_revoke w)⟩
    | setSshExposure on => exact wp_setSshExposure
    | setForwardExposure on => exact ⟨False.elim, fun _ => wp_setForwardExposure⟩
    | addPublicPort req => exact ⟨False.elim, fun _ => wp_addPublicPort⟩
    | removePublicPort proto range => exact ⟨False.elim, fun _ => wp_removePublicPort⟩
  | tick O now => exact ⟨False.elim, fun _ => wp_tick⟩
  | rebuild => exact ⟨False.elim, fun _ => settles_rebuild⟩

/-! ## Kernel and settings agree -/

/-- The kernel has the ruleset that the stored settings ask for. -/
def Agree (cfg : AgentConfig) (w : World κ) : Prop := Installed (wanted cfg w) w.live w.accepted

theorem agree_event_iff {e : Event} (h : Agree cfg w) :
    Agree cfg (afterEvent H cfg w e) ↔ ¬Refused H cfg w e := by
  obtain ⟨hstuck, hsettles⟩ := event_outcome H cfg w e
  constructor
  · intro hagree hr
    obtain ⟨hopen, hstore, hclosed⟩ := hstuck hr
    have hssh := hagree.sshAllowlistOnly
    rw [hclosed, wanted, hstore] at hssh
    exact Bool.noConfusion (hssh.trans hopen)
  · intro hr
    cases hsettles hr with
    | kept hssh hwant hacc hlive =>
      unfold Agree
      rw [hwant, hacc, hlive]
      exact h
    | installed hinst hguard => exact hinst

/-- A run keeps kernel and settings in agreement after every event exactly when no
request to close SSH has its restoration refused. -/
theorem agree_always_iff (H : Host κ) (cfg : AgentConfig) (w : World κ) (es : List Event)
    (h : Agree cfg w) :
    Lts.Always (eventStep H cfg) (Agree cfg) w es ↔
      Lts.StepsMeet (eventStep H cfg) (fun w e => ¬Refused H cfg w e) w es := by
  obtain ⟨w', hrun⟩ := Lts.exists_run (f := afterEvent H cfg) w es
  refine Lts.always_iff_stepsMeet ?_ h hrun
  intro w₁ e w₂ h₁ hstep
  cases hstep
  exact agree_event_iff h₁

end Outcome

/-! ### A restoration refused -/

/-- A backend that accepts a ruleset or not as its script says, and accepts all
when the script is over. -/
def scripted : Host (List Bool) where
  apply _ _
    | false :: answers => (.error "Error: Could not process rule", answers)
    | true :: answers => (.ok (), answers)
    | [] => (.ok (), [])
  add _ answers := (.ok (), answers)
  remove _ answers := (.ok (), answers)
  list answers := (.ok [], answers)
  save _ answers := (.ok (), answers)

/-- A host with knock parameters. -/
def knockConfig : AgentConfig :=
  { AgentConfig.default with sshKnock := some ⟨40000, Vector.replicate 16 7⟩ }

/-- SSH is open, one address is allowed, and kernel and settings agree. -/
def openWorld (answers : List Bool) : World (List Bool) where
  store := { State.default with entries := [⟨⟨0⟩, .v4 ⟨ipv4 203 0 113 7, 32, by decide⟩, "", none, 0, ⟨0⟩⟩] }
  live := ⟨false, false⟩
  host := answers
  accepted := knockConfig.rulesetWith State.default.rulesetFlags

theorem agree_openWorld (answers : List Bool) : Agree knockConfig (openWorld answers) :=
  ⟨rfl, rfl, rfl, rfl, .inl rfl, .inl rfl, rfl, rfl⟩

/-- A refused gate and a refused port leave kernel and settings in agreement. -/
theorem agree_always_refused_gate :
    Lts.Always (eventStep scripted knockConfig) (Agree knockConfig) (openWorld [false, true, false])
      [.request (.setForwardExposure true) 0, .request (.addPublicPort ⟨.tcp, ⟨80, 443⟩, ""⟩) 0] := by
  refine (agree_always_iff scripted knockConfig (openWorld [false, true, false]) _
    (agree_openWorld [false, true, false])).mpr ?_
  exact ⟨id, fun w _ => ⟨id, fun w _ => trivial⟩⟩

/-- The knock rules are refused, the table without them is accepted, and so the
stored settings are to be restored; this is refused too. The request returns an
error, with SSH closed in the kernel and open in the store. -/
theorem ssh_restore_refused : Agree knockConfig (openWorld [false, true, false]) ∧
    ¬Agree knockConfig (afterEvent scripted knockConfig (openWorld [false, true, false])
      (.request (.setSshExposure true) 0)) := by
  refine ⟨agree_openWorld _, fun h => ?_⟩
  have hssh := h.sshAllowlistOnly
  revert hssh
  decide +kernel

/-! ## A closed SSH port is closed -/

section Closed

variable {κ : Type} {H : Host κ} {cfg : AgentConfig} {w : World κ}

/-- The ruleset closes the SSH port. -/
structure Closes (cfg : AgentConfig) (c : RulesetConfig) : Prop where
  sshPort : c.sshPort = cfg.sshPort
  closed : c.sshAllowlistOnly = true
  uncovered : Uncovered cfg c

/-- While the store has SSH closed, the kernel has too, and nothing covers the port. -/
def SshClosed (cfg : AgentConfig) (w : World κ) : Prop :=
  w.store.sshAllowlistOnly = true → Uncovered cfg (wanted cfg w) ∧ Closes cfg w.accepted

theorem sshClosed_event {e : Event} (h : SshClosed cfg w) : SshClosed cfg (afterEvent H cfg w e) := by
  intro hclosed
  obtain ⟨hstuck, hsettles⟩ := event_outcome H cfg w e
  by_cases hr : Refused H cfg w e
  · obtain ⟨hopen, hstore, -⟩ := hstuck hr
    rw [hstore, hopen] at hclosed
    cases hclosed
  · cases hsettles hr with
    | kept hssh hwant hacc hlive =>
      rw [hwant, hacc]
      exact h (hssh.symm.trans hclosed)
    | installed hinst hguard =>
      have huncovered := hguard hclosed fun hbefore => (h hbefore).1
      refine ⟨huncovered, hinst.sshPort, hinst.sshAllowlistOnly.trans hclosed, ?_⟩
      unfold Uncovered
      rw [hinst.publicTcp]
      exact huncovered

/-- The ruleset has the SSH port, the exposure and the public TCP ports asked for. -/
structure Enforces (want acc : RulesetConfig) : Prop where
  sshPort : acc.sshPort = want.sshPort
  sshAllowlistOnly : acc.sshAllowlistOnly = want.sshAllowlistOnly
  publicTcp : acc.publicTcp = want.publicTcp

/-- A packet the closed SSH port is to be guarded from: new, over TCP, not from the
host itself. -/
structure NewSshPacket (cfg : AgentConfig) (p : Nft.Packet) : Prop where
  new : p.ct ≠ .established ∧ p.ct ≠ .related
  notLo : p.iifLo = false
  tcp : p.is .tcp = true
  dport : p.dport = some cfg.sshPort

variable {acc : RulesetConfig} {entries : List Entry} {now : DateTime}
variable {dyn addr : SetName → IpAddr → Bool} {p : Nft.Packet}

theorem NewSshPacket.not_ofConnection (hp : NewSshPacket cfg p) : ¬OfConnection p :=
  not_or.mpr hp.new

/-- It is not over any other protocol. -/
theorem NewSshPacket.not_is (hp : NewSshPacket cfg p) {l4 : Nft.L4} (h : l4 ≠ .tcp) : p.is l4 = false :=
  Bool.eq_false_iff.mpr fun hl4 => h (Nft.Packet.is_unique hl4 hp.tcp)

theorem NewSshPacket.not_seenInfraIcmp (hp : NewSshPacket cfg p) : ¬SeenInfraIcmp p := by
  intro ⟨h, _⟩
  rcases h with ⟨-, hicmp, -⟩ | ⟨-, hicmp, -⟩
  · exact Bool.false_ne_true ((hp.not_is (by decide)).symm.trans hicmp)
  · exact Bool.false_ne_true ((hp.not_is (by decide)).symm.trans hicmp)

theorem NewSshPacket.not_knockMatch (hp : NewSshPacket cfg p) : ¬KnockMatch acc p := by
  intro ⟨_, _, hudp, _⟩
  exact Bool.false_ne_true ((hp.not_is (by decide)).symm.trans hudp)

/-- An address rule of either family looks into the set of the packet's family. -/
theorem not_saddrIn {S : Nft.Sets SetName} {set : Nft.Family → SetName} (h : ∀ f, S.addr (set f) p.saddr = false)
    (f : Nft.Family) : Nft.Match.holds S p (.saddrIn f (set f)) = false := by
  simp [Nft.Match.holds, h f]

/-- The closed port has no rule of its own but that for knocks. -/
theorem not_meetsAny_sshAccepts {S : Nft.Sets SetName} (hclosed : acc.sshAllowlistOnly = true)
    (hknock : ∀ f, S.addr (knockSet f) p.saddr = false) : Nft.meetsAny S p (sshAccepts acc) = false := by
  have hknock4 : Nft.Match.holds S p (.saddrIn .ipv4 .knock4) = false := not_saddrIn hknock .ipv4
  have hknock6 : Nft.Match.holds S p (.saddrIn .ipv6 .knock6) = false := not_saddrIn hknock .ipv6
  unfold sshAccepts
  rw [if_pos hclosed]
  split
  · simp [Nft.meetsAny, hknock4, hknock6]
  · rfl

/-- The port is in no public range, and the source in none of the allow sets. -/
theorem not_meetsAny_tailAccepts {S : Nft.Sets SetName} (hp : NewSshPacket cfg p)
    (hport : S.port .publicTcp cfg.sshPort = false) (hallow : ∀ f, S.addr (allowSet f) p.saddr = false) :
    Nft.meetsAny S p tailAccepts = false := by
  have htcp : Nft.Match.holds S p (.dportIn .tcp .publicTcp) = false := by
    simp [Nft.Match.holds, hp.dport, hport]
  have hudp : Nft.Match.holds S p (.dportIn .udp .publicUdp) = false := by
    have hnot : p.is .udp = false := hp.not_is (by decide)
    simp [Nft.Match.holds, hnot]
  have hallow4 : Nft.Match.holds S p (.saddrIn .ipv4 .allow4) = false := not_saddrIn hallow .ipv4
  have hallow6 : Nft.Match.holds S p (.saddrIn .ipv6 .allow6) = false := not_saddrIn hallow .ipv6
  simp [Nft.meetsAny, tailAccepts, htcp, hudp, hallow4, hallow6]

/-- With the port closed the chain drops the packet. -/
theorem closes_drops (hcloses : Closes cfg acc) (hp : NewSshPacket cfg p)
    (hallow : ∀ f, addr (allowSet f) p.saddr = false) (hknock : ∀ f, addr (knockSet f) p.saddr = false) :
    ((inputChain acc).eval { rulesetSets acc entries now dyn with addr := addr } p).1 = .drop := by
  by_cases hinv : p.ct = .invalid
  · simp only [Nft.Chain.eval, inputChain, List.append_assoc, evalLines_base_invalid hinv, Option.getD_some]
  · have hport : (rulesetSets acc entries now dyn).port .publicTcp cfg.sshPort = false := by
      rw [Bool.eq_false_iff, ne_eq, rulesetSets_publicTcp]
      rintro ⟨r, hr, hcontains⟩
      exact Bool.false_ne_true ((hcloses.uncovered r hr).symm.trans hcontains)
    let S : Nft.Sets SetName := { rulesetSets acc entries now dyn with addr := addr }
    have hmeets : Nft.meetsAny S p (sshAccepts acc ++ tailAccepts) = false := by
      rw [Nft.meetsAny_append, not_meetsAny_sshAccepts (S := S) hcloses.closed hknock,
        not_meetsAny_tailAccepts (S := S) hp hport hallow]
      rfl
    rw [inputChain_eval_new hp.not_ofConnection hinv (by simp [hp.notLo]) hp.not_seenInfraIcmp hp.not_knockMatch,
      show Nft.meetsAny _ p (sshAccepts acc ++ tailAccepts) = false from hmeets]
    rfl

/-- Wherever SSH is open, or closed and uncovered, and the kernel enforces it, every
run leaves the port closed to strangers whenever the stored setting says so. -/
theorem ssh_stays_closed {κ : Type} (H : Host κ) (cfg : AgentConfig) (w w' : World κ) (es : List Event)
    (hstart : w.store.sshAllowlistOnly = true → Uncovered cfg (wanted cfg w))
    (hacc : Enforces (wanted cfg w) w.accepted) (hrun : Lts.run (eventStep H cfg) w es = some w')
    (hclosed : w'.store.sshAllowlistOnly = true) (entries : List Entry) (now : DateTime)
    (dyn addr : SetName → IpAddr → Bool) (p : Nft.Packet) (hp : NewSshPacket cfg p)
    (hallow : ∀ f, addr (allowSet f) p.saddr = false) (hknock : ∀ f, addr (knockSet f) p.saddr = false) :
    ((inputChain w'.accepted).eval { rulesetSets w'.accepted entries now dyn with addr := addr } p).1 = .drop := by
  have hinit : SshClosed cfg w := by
    intro hclosed
    have huncovered := hstart hclosed
    refine ⟨huncovered, hacc.sshPort, hacc.sshAllowlistOnly.trans hclosed, ?_⟩
    unfold Uncovered
    rw [hacc.publicTcp]
    exact huncovered
  have hend : SshClosed cfg w' := by
    refine Lts.run_invariant (I := SshClosed cfg) ?_ hinit hrun
    intro w₁ e w₂ h₁ hstep
    cases hstep
    exact sshClosed_event h₁
  exact closes_drops (hend hclosed).2 hp hallow hknock

/-- A new connection to port 22 from an address nobody allowed. -/
def strangerPacket : Nft.Packet :=
  ⟨false, .v4 (ipv4 198 51 100 9), .new, false, 0, [], 6, [0xc3, 0x50, 0, 22]⟩

theorem ssh_closed_to_stranger :
    ((inputChain (afterEvent scripted knockConfig (openWorld []) (.request (.setSshExposure true) 0)).accepted).eval
      { rulesetSets (afterEvent scripted knockConfig (openWorld []) (.request (.setSshExposure true) 0)).accepted
          [] 0 (fun _ _ => false) with addr := fun _ _ => false } strangerPacket).1 = .drop :=
  ssh_stays_closed scripted knockConfig (openWorld []) _ [.request (.setSshExposure true) 0]
    (fun h => by cases h) ⟨rfl, rfl, rfl⟩ rfl (by decide +kernel) [] 0 (fun _ _ => false) (fun _ _ => false)
    strangerPacket ⟨by decide, rfl, rfl, rfl⟩ (fun _ => rfl) (fun _ => rfl)

end Closed

end Ipgate
