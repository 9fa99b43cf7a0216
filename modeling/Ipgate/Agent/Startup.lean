-- SUMMARY: main.rs: starting the service from the state file, and runs in which it serves, dies and starts again.
import Ipgate.Agent.Api.Table
import Ipgate.Agent.Cli.SshExpose

/-!
# Starting the service

The service starts from the state file, with whatever the kernel has. It drops the entries that
have expired, rebuilds the whole table, and brings the forwards up as far as it can. Where the
table is not accepted it does not come up. What went wrong before is over with that: the table is
again the one of the settings, and stays it as long as it would have on a host where nothing has
ever gone wrong.
-/

namespace Ipgate.Service

open Act Cli

/-! ## The start -/

section Start

variable {κ : Type}

/-- What the service does before it serves. -/
def startup (H : Host (Machine κ)) (N : NatBackend (Machine κ)) (cfg : AgentConfig) (now : DateTime)
    (pass : ForwardRule → HostEnv) : Act (World (Machine κ)) String Unit := do
  loadStore
  .modify fun w => { w with live := ⟨false, false⟩ }
  let removed ← onStore fun s => s.pruneExpired now
  .onlyIf (!removed.isEmpty) (callSave H)
  let w ← .get
  let applied ← applyRuleset H (cfg.rulesetWith w.store.rulesetFlags) w.store.entries
  .modify fun w => { w with live := Live.record applied }
  -- The forwards never keep the service from coming up.
  .ignore (applyNow H N pass)

/-! ## Where it ends -/

variable {H : Host (Machine κ)} {N : NatBackend (Machine κ)} {cfg : AgentConfig} {now : DateTime}
variable {pass : ForwardRule → HostEnv} {w w' : World (Machine κ)} {d : State}

/-- The service has come up from the saved state. -/
structure Started (H : Host (Machine κ)) (cfg : AgentConfig) (now : DateTime) (d : State) (w' : World (Machine κ)) :
    Prop where
  agree : Agree cfg w'
  /-- The kernel took the table with the entries that had not expired. -/
  taken : ∃ k k', H.apply w'.accepted w'.store.entries k = (.ok (), k')
  entries : w'.store.entries = d.entries.filter fun e => !e.isExpired now
  devices : w'.store.devices = d.devices
  forwards : w'.store.forwards = d.forwards
  flags : w'.store.rulesetFlags = d.rulesetFlags

/-- What a start is about, apart from the forwards that are resolved. -/
def core (w : World (Machine κ)) : (List Entry × List Device × List ForwardRule × RulesetFlags) × Live × RulesetConfig :=
  ((w.store.entries, w.store.devices, w.store.forwards, w.store.rulesetFlags), w.live, w.accepted)

theorem keeps_applyNow : Keeps core (applyNow H N pass) := by
  refine keeps_bind keeps_get fun w => keeps_bind (keeps_bind (fun w => ?_) fun _ => keeps_bind (fun _ => rfl) fun _ =>
    keeps_ignore fun _ => rfl) fun _ => keeps_pure
  unfold installNat
  dsimp only
  split
  · rfl
  · rfl

theorem climb_taken {H : Host κ} {want : RulesetConfig} {entries : List Entry} {cs : List (Bool × Bool)}
    {c : Bool × Bool} {k k' : κ} (h : climb H want entries cs k = (some c, k')) :
    ∃ k₀, H.apply (candidate want c.1 c.2) entries k₀ = (.ok (), k') := by
  induction cs generalizing k with
  | nil => cases h
  | cons b cs ih =>
    unfold climb at h
    split at h
    · next k₁ happly =>
      cases h
      exact ⟨k, happly⟩
    · exact ih h

theorem pruneExpired_core {s : State} : (s.pruneExpired now).2.entries = s.entries.filter (fun e => !e.isExpired now) ∧
    (s.pruneExpired now).2.devices = s.devices ∧ (s.pruneExpired now).2.forwards = s.forwards := by
  unfold State.pruneExpired
  dsimp only
  split
  · exact ⟨rfl, rfl, rfl⟩
  · exact ⟨rfl, rfl, rfl⟩

/-- The table is rebuilt for the store, or the start fails. -/
theorem wp_bringUp : wp (do
      let w ← .get
      let applied ← applyRuleset H (cfg.rulesetWith w.store.rulesetFlags) w.store.entries
      .modify fun w => { w with live := Live.record applied }
      .ignore (applyNow H N pass))
    (fun r w' => r = .ok () → core w' = (((core w).1), w'.live, w'.accepted) ∧ Agree cfg w' ∧
      ∃ k k', H.apply w'.accepted w.store.entries k = (.ok (), k')) w := by
  simp only [wp_bind, wp_get, andThen_ok]
  apply wp_mono (applyRuleset_ladder (cfg.rulesetWith w.store.rulesetFlags) w.store.entries w)
  intro r w₁ h
  rcases hladder : ladder H (cfg.rulesetWith w.store.rulesetFlags) w.store.entries w.host with ⟨_ | c, k⟩
  · rw [hladder] at h
    obtain ⟨-, e, rfl⟩ := h
    exact fun h => by cases h
  · rw [hladder] at h
    obtain ⟨rfl, reason, rfl⟩ := h
    simp only [andThen_ok, wp_bind, wp_modify, wp_ignore]
    -- the pass that follows changes the cache and the NAT table only
    apply wp_mono (Q := fun _ w₂ => core w₂ = _) (keeps_applyNow _)
    intro r₂ w₂ hcore _
    obtain ⟨hstore, hrest⟩ := Prod.mk.inj hcore
    obtain ⟨hlive, haccepted⟩ := Prod.mk.inj hrest
    have hflags : w₂.store.rulesetFlags = w.store.rulesetFlags := congrArg (fun x => x.2.2.2) hstore
    have hwant : wanted cfg w₂ = wanted cfg w := by rw [wanted, wanted, hflags]
    refine ⟨Prod.ext hstore rfl, ?_, ?_⟩
    · unfold Agree
      rw [hwant, hlive, haccepted]
      exact installed_candidate (climb_mem hladder)
    · obtain ⟨k₀, happly⟩ := climb_taken hladder
      rw [haccepted]
      exact ⟨k₀, k, happly⟩

/-- A start that goes through has brought the table in line with what was saved, whatever was in
memory and in the kernel before. -/
theorem wp_startup :
    wp (startup H N cfg now pass) (fun r w' => r = .ok () → Started H cfg now w.host.disk.written w') w := by
  obtain ⟨hentries, hdevices, hforwards⟩ := @pruneExpired_core now w.host.disk.written
  unfold startup
  simp only [loadStore, onStore, wp_bind, wp_modify, wp_update, andThen_ok]
  -- However the save ends, the store is the one without the expired entries.
  apply wp_mono (Q := fun _ w₁ => w₁.store = (w.host.disk.written.pruneExpired now).2)
  · exact wp_onlyIf.mpr ⟨fun _ => rfl, fun _ => rfl⟩
  · intro r w₁ hstore
    cases r with
    | error e => exact fun h => by cases h
    | ok =>
      rw [andThen_ok]
      apply wp_mono wp_bringUp
      intro r₂ w₂ h hok
      obtain ⟨hcore, hagree, htaken⟩ := h hok
      have hparts : (w₂.store.entries, w₂.store.devices, w₂.store.forwards, w₂.store.rulesetFlags) = (core w₁).1 :=
        congrArg Prod.fst hcore
      simp only [core, hstore, Prod.mk.injEq] at hparts
      rw [hstore] at htaken
      obtain ⟨he, hd, hf, hflags⟩ := hparts
      exact
        { agree := hagree
          taken := he ▸ htaken
          entries := he.trans hentries
          devices := hd.trans hdevices
          forwards := hf.trans hforwards
          flags := hflags.trans State.pruneExpired_rulesetFlags }

end Start

/-! ## Serving, dying and starting -/

section Life

variable {κ : Type}

/-- The world, and whether the service is there. -/
structure Life (κ : Type) where
  world : World (Machine κ)
  running : Bool

inductive LifeEvent (κ : Type) where
  /-- A request or a round of the reconcile loop. -/
  | serves (e : Event)
  /-- The service is killed, or the host goes down. What the kernel has then may be anything, and a save
  under way may have come to its end. -/
  | dies (kernel : κ) (accepted : RulesetConfig) (saved : Bool)
  | starts (now : DateTime) (pass : ForwardRule → HostEnv)

/-- The world that the service leaves behind. -/
def abandoned (w : World (Machine κ)) (kernel : κ) (accepted : RulesetConfig) (saved : Bool) : World (Machine κ) :=
  { w with
    host := ⟨kernel, { w.host.disk with written := if saved then w.store else w.host.disk.written }⟩
    accepted := accepted }

def lifeStep (B : NftBackend κ) (N : NatBackend κ) (cfg : AgentConfig) (s : Life κ) : LifeEvent κ → Option (Life κ)
  | .serves e => if s.running then some { s with world := afterEvent (machine B) cfg s.world e } else none
  | .dies kernel accepted saved => some ⟨abandoned s.world kernel accepted saved, false⟩
  | .starts now pass =>
    if s.running then none
    else
      let r := startup (machine B) (machineNat N) cfg now pass s.world
      some ⟨r.2, r.1.isOk⟩

variable {B : NftBackend κ} {N : NatBackend κ} {cfg : AgentConfig} {s s' : Life κ} {es : List (LifeEvent κ)}

/-- While the service runs, the kernel has the ruleset of the settings. -/
def AgreesWhileUp (cfg : AgentConfig) (s : Life κ) : Prop := s.running = true → Agree cfg s.world

/-- A request to close SSH whose restoration the kernel refuses. -/
def LifeRefused (B : NftBackend κ) (cfg : AgentConfig) (s : Life κ) : LifeEvent κ → Prop
  | .serves e => Refused (machine B) cfg s.world e
  | _ => False

theorem startup_started {now : DateTime} {pass : ForwardRule → HostEnv} {w : World (Machine κ)}
    (h : (startup (machine B) (machineNat N) cfg now pass w).1.isOk = true) :
    Started (machine B) cfg now w.host.disk.written (startup (machine B) (machineNat N) cfg now pass w).2 := by
  have hwp : wp (startup (machine B) (machineNat N) cfg now pass) _ w := wp_startup
  refine hwp ?_
  cases hr : (startup (machine B) (machineNat N) cfg now pass w).1 with
  | ok => rfl
  | error e =>
    rw [hr] at h
    cases h

theorem agreesWhileUp_step {e : LifeEvent κ} (h : AgreesWhileUp cfg s) (hstep : lifeStep B N cfg s e = some s') :
    AgreesWhileUp cfg s' ↔ ¬LifeRefused B cfg s e := by
  cases e with
  | serves e =>
    simp only [lifeStep] at hstep
    split at hstep
    · next hup =>
      cases hstep
      exact (forall_prop_of_true hup).trans (agree_event_iff (h hup))
    · cases hstep
  | dies kernel accepted saved =>
    cases hstep
    exact iff_of_true nofun id
  | starts now pass =>
    simp only [lifeStep] at hstep
    split at hstep
    · cases hstep
    · cases hstep
      exact iff_of_true (fun hup => (startup_started hup).agree) id

/-- Whatever has happened before, and in whatever state the service left the kernel: as often as it
starts and comes up, it has the saved entries that have not expired, the saved devices, forwards and
settings, and the kernel has taken a table for them. In a run from a host where the service is
down, the kernel has the ruleset of the settings as long as the service runs, exactly when no
request to close SSH has its restoration refused. -/
theorem starts_afresh (B : NftBackend κ) (N : NatBackend κ) (cfg : AgentConfig) (s s' : Life κ) (es : List (LifeEvent κ))
    (hs : s.running = false) (hrun : Lts.run (lifeStep B N cfg) s es = some s') :
    (∀ pre now pass post t, es = pre ++ .starts now pass :: post →
      Lts.run (lifeStep B N cfg) s (pre ++ [.starts now pass]) = some t → t.running = true →
      ∃ u, Lts.run (lifeStep B N cfg) s pre = some u ∧ Started (machine B) cfg now u.world.host.disk.written t.world) ∧
    (Lts.Always (lifeStep B N cfg) (AgreesWhileUp cfg) s es ↔
      Lts.StepsMeet (lifeStep B N cfg) (fun s e => ¬LifeRefused B cfg s e) s es) := by
  constructor
  · rintro pre now pass post t - ht hup
    obtain ⟨u, hu, hlast⟩ := Lts.run_append_iff.mp ht
    obtain ⟨v, hv, hnil⟩ := Lts.run_cons_iff.mp hlast
    cases hnil
    refine ⟨u, hu, ?_⟩
    simp only [lifeStep] at hv
    split at hv
    · cases hv
    · cases hv
      exact startup_started hup
  · refine Lts.always_iff_stepsMeet (fun _ _ _ => agreesWhileUp_step) (fun hup => ?_) hrun
    rw [hs] at hup
    cases hup

end Life

/-! ### Killed with the gate closed -/

/-- A kernel that takes every NAT table. -/
def willingNat : NatBackend Unit := ⟨fun _ k => (.ok (), k), fun k => (.ok (), k)⟩

/-- The service is killed after a request, and starts on a host that has been rebooted. -/
def outage : List (LifeEvent Unit) :=
  [.starts 0 fun _ => eth0, .serves (.request (.setForwardExposure true) 0),
    .dies () (AgentConfig.default.rulesetWith State.default.rulesetFlags) false, .starts 60 fun _ => eth0]

theorem starts_afresh_outage : Lts.Always (lifeStep Cli.willing willingNat knockConfig) (AgreesWhileUp knockConfig)
    ⟨hostWith [], false⟩ outage := by
  have hruns : (Lts.run (lifeStep Cli.willing willingNat knockConfig) ⟨hostWith [], false⟩ outage).isSome = true := by
    decide +kernel
  obtain ⟨s', hrun⟩ := Option.isSome_iff_exists.mp hruns
  refine (starts_afresh Cli.willing willingNat knockConfig ⟨hostWith [], false⟩ s' outage rfl hrun).2.mpr ?_
  exact ⟨id, fun _ _ => ⟨id, fun _ _ => ⟨id, fun _ _ => ⟨id, fun _ _ => trivial⟩⟩⟩⟩

end Ipgate.Service
