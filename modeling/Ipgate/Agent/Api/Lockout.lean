-- SUMMARY: When SSH is closed in the kernel with nobody on the allowlist and no knock rules, over runs with time.
import Ipgate.Agent.Api.Frames
import Ipgate.Agent.Api.Offers

/-!
# Locking everybody out

With SSH closed, only addresses of the allowlist and those that have knocked can connect.
The request that closes SSH insists on an entry that has not expired and on the knock rules.
Entries are revoked and expire later on, and the backend may refuse the knock rules in a later
rebuild; only both together lock everybody out.
-/

namespace Ipgate.Lockout

open Net Act

/-! ## Runs with time -/

structure Sys (κ : Type) where
  world : World κ
  now : DateTime

inductive Event where
  | wait (now : DateTime)
  | request (r : Request)
  | tick (O : HashOrder)
  /-- The rebuild of a tick that could not read the kernel. -/
  | rebuild

section System

variable {κ : Type} (H : Host κ) (cfg : AgentConfig)

def Sys.toEvent (s : Sys κ) : Event → Option Ipgate.Event
  | .wait _ => none
  | .request r => some (.request r s.now)
  | .tick O => some (.tick O s.now)
  | .rebuild => some .rebuild

def Sys.step (s : Sys κ) (e : Event) : Option (Sys κ) :=
  match e with
  | .wait now => if s.now ≤ now then some { s with now := now } else none
  | e => (s.toEvent e).map fun e => { s with world := afterEvent H cfg s.world e }

/-- The store is that of a fresh installation, and the kernel has SSH open. -/
def Sys.Fresh (s : Sys κ) : Prop := s.world.store = .default ∧ s.world.accepted.sshAllowlistOnly = false

/-! ## Who can connect -/

/-- The kernel lets only chosen addresses connect to SSH. -/
def Sys.Closed (s : Sys κ) : Prop := s.world.accepted.sshAllowlistOnly = true

def Sys.Knocks (s : Sys κ) : Prop := s.world.accepted.knock.isSome = true

/-- An entry of the store has not expired. -/
def Sys.Admits (s : Sys κ) : Prop := ∃ e ∈ s.world.store.entries, e.isExpired s.now = false

/-- Somebody can connect. -/
def Sys.Reachable (s : Sys κ) : Prop := s.Closed → s.Knocks ∨ s.Admits

instance (s : Sys κ) : Decidable s.Reachable :=
  inferInstanceAs (Decidable (s.world.accepted.sshAllowlistOnly = true →
    s.world.accepted.knock.isSome = true ∨ ∃ e ∈ s.world.store.entries, e.isExpired s.now = false))

/-- The steps that can take the last entry that counts. -/
def Event.TakesAway : Event → Prop
  | .wait _ | .request (.allow ..) | .request (.revoke _) => True
  | _ => False

/-- While SSH was closed, a step took the last entry that had not expired, and none has come
since. -/
def LostSince (s : Sys κ) (es : List Event) : Prop :=
  Lts.EverSince (Sys.step H cfg) (fun u e => e.TakesAway ∧ u.Closed ∧ u.Admits) (fun u => u.Closed ∧ ¬u.Admits) s es

/-- A step rebuilt the table, and the backend refused a ruleset with knock rules. -/
def Sys.KnocksRefused (s : Sys κ) (e : Event) : Prop :=
  ∃ e', s.toEvent e = some e' ∧ ∃ o ∈ offers H cfg s.world e', o.RefusedKnock

/-- A rebuild had its knock rules refused, and SSH has been closed without any since. -/
def KnocklessSince (s : Sys κ) (es : List Event) : Prop :=
  Lts.EverSince (Sys.step H cfg) (Sys.KnocksRefused H cfg) (fun u => u.Closed ∧ ¬u.Knocks) s es

end System

/-! ## Closing SSH -/

section Closing

variable {κ : Type} {H : Host κ} {cfg : AgentConfig} {w : World κ} {now : DateTime} {on : Bool} {e : Ipgate.Event}

/-- Without an entry that counts, a request to close SSH changes nothing. -/
theorem setSshExposure_empty (hnone : w.store.entries.any (fun e => !e.isExpired now) = false) :
    (setSshExposure H cfg true now w).2 = w := by
  have h : wp (setSshExposure H cfg true now) (fun _ w' => w' = w) w := by
    simp only [setSshExposure, wp_bind, wp_get, andThen_ok, rejectIf, wp_onlyIf, wp_fail, andThen_error, hnone]
    exact ⟨fun _ => trivial, fun h => by cases h⟩
  exact h

/-- The request stores the setting, or nothing. -/
theorem setSshExposure_store : (setSshExposure H cfg on now w).2.store = w.store ∨
    (setSshExposure H cfg on now w).2.store = (w.store.setSshAllowlistOnly on).2 := by
  have h : wp (setSshExposure H cfg on now) (fun _ w' => w'.store = w.store ∨
      w'.store = (w.store.setSshAllowlistOnly on).2) w := by
    simp only [setSshExposure, wp_bind, wp_get, andThen_ok, rejectIf, wp_onlyIf, wp_fail, andThen_error]
    refine ⟨fun _ => .inl trivial, fun _ => ?_⟩
    generalize (if on then cfg.publicPortCoveringSsh (w.store.rulesetFlags.withSsh on) else none) = covering
    cases covering with
    | some p => exact .inl rfl
    | none =>
      rw [wp_bind]
      apply wp_mono wp_reapplyRuleset_store
      intro r w₁ h₁
      -- A table that is refused stores nothing, and neither does one that is taken back.
      cases r with
      | error e => exact .inl h₁
      | ok applied =>
        rw [andThen_ok]
        split
        · rw [wp_bind]
          apply wp_mono wp_reapplyRuleset_store
          intro r w₂ h₂
          cases r with
          | error e => exact .inl (h₂.trans h₁)
          | ok applied => exact .inl (h₂.trans h₁)
        · apply wp_mono wp_commit_store
          intro r w₂ h₂
          rw [h₂, h₁]
          exact .inr rfl
  exact h

/-- An event other than a request to change it leaves the setting alone. -/
theorem afterEvent_ssh (hnot : ∀ on now, e ≠ .request (.setSshExposure on) now) :
    (afterEvent H cfg w e).store.sshAllowlistOnly = w.store.sshAllowlistOnly := by
  have hports : ∀ (s : State) ports, (s.setPublicPorts ports).sshAllowlistOnly = s.sshAllowlistOnly := fun _ _ => rfl
  cases e with
  | request r now =>
    cases r with
    | allow who req id => exact frames_allow (fun _ => rfl) w
    | revoke req =>
      exact frames_revoke (fun _ _ => congrArg RulesetFlags.sshAllowlistOnly State.revokeByTarget_rulesetFlags) w
    | setSshExposure on => exact (hnot on now rfl).elim
    | setForwardExposure on => exact frames_setForwardExposure (fun _ => rfl) w
    | addPublicPort req => exact frames_addPublicPort hports w
    | removePublicPort proto range => exact frames_removePublicPort hports w
  | tick O now =>
    exact frames_reconcileTick (fun _ => congrArg RulesetFlags.sshAllowlistOnly State.pruneExpired_rulesetFlags) w
  | rebuild => exact frames_rebuild w

/-- SSH is closed in the kernel by a request only, and that with an entry that counts. -/
theorem closing_event (hclosed : SshClosed cfg w) (hopen : w.accepted.sshAllowlistOnly = false)
    (h : (afterEvent H cfg w e).accepted.sshAllowlistOnly = true) :
    ∃ now, e = .request (.setSshExposure true) now ∧ w.store.entries.any (fun e => !e.isExpired now) = true := by
  have hstore : w.store.sshAllowlistOnly = false := by
    rw [Bool.eq_false_iff]
    intro hon
    cases hopen.symm.trans (hclosed hon).2.closed
  obtain ⟨-, hsettles⟩ := event_outcome H cfg w e
  by_cases hr : Refused H cfg w e
  · unfold Refused at hr
    split at hr
    · next on now =>
      obtain ⟨rfl, -, hany, -⟩ := hr
      exact ⟨now, rfl, hany⟩
    · exact hr.elim
  -- The store has SSH closed afterwards.
  have hafter : (afterEvent H cfg w e).store.sshAllowlistOnly = true := by
    cases hsettles hr with
    | kept hssh hwant hacc hlive =>
      rw [hacc, hopen] at h
      cases h
    | installed hinst hguard => exact hinst.sshAllowlistOnly.symm.trans h
  by_cases hset : ∃ on now, e = .request (.setSshExposure on) now
  · obtain ⟨on, now, rfl⟩ := hset
    have hon : on = true := by
      have hstored : (setSshExposure H cfg on now w).2.store = _ ∨ _ := setSshExposure_store
      cases hstored with
      | inl hsame => cases hstore.symm.trans ((congrArg State.sshAllowlistOnly hsame).symm.trans hafter)
      | inr hset => exact (congrArg State.sshAllowlistOnly hset).symm.trans hafter
    subst hon
    refine ⟨now, rfl, ?_⟩
    by_contra hnone
    have hsame : afterEvent H cfg w (.request (.setSshExposure true) now) = w :=
      setSshExposure_empty (Bool.eq_false_iff.mpr hnone)
    rw [hsame] at hafter
    cases hstore.symm.trans hafter
  · have hsame : (afterEvent H cfg w e).store.sshAllowlistOnly = w.store.sshAllowlistOnly :=
      afterEvent_ssh fun on now heq => hset ⟨on, now, heq⟩
    cases hstore.symm.trans (hsame.symm.trans hafter)

/-- The entries that count. -/
def counting (now : DateTime) (s : State) : List Entry := s.entries.filter fun e => !e.isExpired now

theorem counting_pruneExpired (s : State) : counting now (s.pruneExpired now).2 = counting now s := by
  unfold counting State.pruneExpired
  dsimp only
  split <;> simp [List.filter_filter]

end Closing

/-! ## What a step does to the entries -/

section Steps

variable {κ : Type} {H : Host κ} {cfg : AgentConfig} {s s' t : Sys κ} {e : Event}
variable {es xs : List Event}

theorem admits_iff : s.Admits ↔ counting s.now s.world.store ≠ [] := by
  simp [Sys.Admits, counting, List.filter_eq_nil_iff]

/-- What a step is: time passes, or an event happens now. -/
theorem step_cases (h : s.step H cfg e = some s') :
    (∃ now, e = .wait now ∧ s' = { s with now := now }) ∨
      ∃ e', s.toEvent e = some e' ∧ s' = { s with world := afterEvent H cfg s.world e' } := by
  cases e with
  | wait now =>
    simp only [Sys.step] at h
    split at h
    · cases h
      exact .inl ⟨now, rfl, rfl⟩
    · cases h
  | request r =>
    cases h
    exact .inr ⟨_, rfl, rfl⟩
  | tick O =>
    cases h
    exact .inr ⟨_, rfl, rfl⟩
  | rebuild =>
    cases h
    exact .inr ⟨_, rfl, rfl⟩

theorem sshClosed_step (hclosed : SshClosed cfg s.world) (h : s.step H cfg e = some s') : SshClosed cfg s'.world := by
  cases step_cases h with
  | inl hwait =>
    obtain ⟨now, -, rfl⟩ := hwait
    exact hclosed
  | inr hevent =>
    obtain ⟨e', -, rfl⟩ := hevent
    exact sshClosed_event hclosed

/-- The steps that do not take entries away keep those that count. -/
theorem counting_step (h : s.step H cfg e = some s') (hnot : ¬e.TakesAway) :
    s'.now = s.now ∧ counting s'.now s'.world.store = counting s.now s.world.store := by
  cases e with
  | wait now => exact (hnot trivial).elim
  | request r =>
    cases h
    refine ⟨rfl, ?_⟩
    cases r with
    | allow who req id => exact (hnot trivial).elim
    | revoke req => exact (hnot trivial).elim
    | setSshExposure on => exact frames_setSshExposure (fun _ => rfl) s.world
    | setForwardExposure on => exact frames_setForwardExposure (fun _ => rfl) s.world
    | addPublicPort req => exact frames_addPublicPort (fun _ _ => rfl) s.world
    | removePublicPort proto range => exact frames_removePublicPort (fun _ _ => rfl) s.world
  | tick O =>
    cases h
    exact ⟨rfl, frames_reconcileTick counting_pruneExpired s.world⟩
  | rebuild =>
    cases h
    exact ⟨rfl, frames_rebuild s.world⟩

theorem takesAway_of_lost (h : s.step H cfg e = some s') (hadmits : s.Admits) (hlost : ¬s'.Admits) : e.TakesAway := by
  by_contra hnot
  rw [admits_iff, (counting_step h hnot).2, ← admits_iff] at hlost
  exact hlost hadmits

/-- The step that closes SSH leaves somebody who can connect. -/
theorem admits_of_closing (hclosed : SshClosed cfg s.world) (hopen : ¬s.Closed) (h : s.step H cfg e = some s')
    (hclosing : s'.Closed) : s'.Admits := by
  cases step_cases h with
  | inl hwait =>
    obtain ⟨now, -, rfl⟩ := hwait
    exact (hopen hclosing).elim
  | inr hevent =>
    obtain ⟨e', he', rfl⟩ := hevent
    obtain ⟨now, rfl, hany⟩ := closing_event hclosed (Bool.eq_false_iff.mpr hopen) hclosing
    cases e with
    | wait | tick | rebuild => cases he'
    | request r =>
      cases he'
      rw [admits_iff, (counting_step h (by exact id)).2, ← admits_iff]
      simpa [Sys.Admits] using hany

/-- SSH that is closed with nobody on the allowlist has been so since a step took the last entry. -/
theorem lostSince_of_run (hclosed : SshClosed cfg s.world) (hopen : ¬s.Closed)
    (hrun : Lts.run (Sys.step H cfg) s es = some t) (h : t.Closed ∧ ¬t.Admits) : LostSince H cfg s es := by
  refine Lts.everSince_of_run (I := fun u => SshClosed cfg u.world) (fun _ _ _ => sshClosed_step) ?_ hclosed
    (fun hs => hopen hs.1) hrun h
  intro u e u' hu hnot hstep hu'
  have hclosedu : u.Closed := by
    by_contra hopenu
    exact hu'.2 (admits_of_closing hu hopenu hstep hu'.1)
  have hadmits : u.Admits := by
    by_contra hnone
    exact hnot ⟨hclosedu, hnone⟩
  exact ⟨takesAway_of_lost hstep hadmits hu'.2, hclosedu, hadmits⟩

theorem knockless_iff : s.world.accepted.Knockless ↔ s.Closed ∧ ¬s.Knocks := by
  simp [RulesetConfig.Knockless, Sys.Closed, Sys.Knocks]

/-- SSH that is closed without knock rules has been so since the backend refused them. -/
theorem knocklessSince_of_run {knock : SshKnock} (hopen : ¬s.Closed)
    (hrun : Lts.run (Sys.step H (cfg.withKnock knock)) s es = some t) (h : t.Closed ∧ ¬t.Knocks) :
    KnocklessSince H (cfg.withKnock knock) s es := by
  refine Lts.everSince_of_run (I := fun _ => True) (fun _ _ _ _ _ => trivial) ?_ trivial
    (fun hs => hopen hs.1) hrun h
  intro u e u' _ hnot hstep hu'
  cases step_cases hstep with
  | inl hwait =>
    obtain ⟨now, -, rfl⟩ := hwait
    exact (hnot hu').elim
  | inr hevent =>
    obtain ⟨e', he', rfl⟩ := hevent
    exact ⟨e', he', refusedKnock_of_knockless (fun hbefore => hnot (knockless_iff.mp hbefore)) (knockless_iff.mpr hu')⟩

end Steps

/-- The service runs with knock parameters. From a fresh installation, whenever the kernel has SSH
closed, knock rules are in its ruleset or an entry has not expired, unless both are lost: the backend
refused the knock rules of a rebuild, and SSH has been closed without any since; and the last entry that
counted was revoked, expired or was replaced while SSH was closed, and none has come since. -/
theorem reachable_unless_lost {κ : Type} (H : Host κ) (cfg : AgentConfig) (knock : SshKnock) (s t : Sys κ)
    (es : List Event) (hfresh : s.Fresh) (hrun : Lts.run (Sys.step H (cfg.withKnock knock)) s es = some t) :
    t.Reachable ∨ (KnocklessSince H (cfg.withKnock knock) s es ∧ LostSince H (cfg.withKnock knock) s es) := by
  obtain ⟨hstore, haccepted⟩ := hfresh
  have hclosed : SshClosed (cfg.withKnock knock) s.world := by
    intro hon
    rw [hstore] at hon
    cases hon
  have hopen : ¬s.Closed := Bool.eq_false_iff.mp haccepted
  by_cases hreach : t.Reachable
  · exact .inl hreach
  · unfold Sys.Reachable at hreach
    push Not at hreach
    obtain ⟨ht, hknocks, hadmits⟩ := hreach
    exact .inr ⟨knocklessSince_of_run hopen hrun ⟨ht, hknocks⟩, lostSince_of_run hclosed hopen hrun ⟨ht, hadmits⟩⟩

/-! ### The knock rules and the last entry are lost -/

def homeKnock : SshKnock := ⟨40000, Vector.replicate 16 7⟩

/-- A fresh installation whose backend takes a ruleset, refuses the next, and takes all others. -/
def freshHost : Sys (List Bool) where
  world := ⟨.default, ⟨false, false⟩, [true, false],
    (AgentConfig.default.withKnock homeKnock).rulesetWith State.default.rulesetFlags⟩
  now := 0

def homeNet : IpNet := .v4 (.host (ipv4 203 0 113 7))

/-- An address is allowed and SSH is closed, with knock rules. When a port is added the backend refuses
them and takes the ruleset without. -/
def knocklessSample : List Event :=
  [.request (.allow ⟨0⟩ ⟨homeNet, "", none⟩ ⟨0⟩), .request (.setSshExposure true),
    .request (.addPublicPort ⟨.tcp, ⟨443, 443⟩, ""⟩)]

theorem reachable_knockless : ∃ t : Sys (List Bool),
    Lts.run (Sys.step scripted (AgentConfig.default.withKnock homeKnock)) freshHost knocklessSample = some t ∧
      t.Closed ∧ ¬t.Knocks ∧ (t.Reachable ∨
        (KnocklessSince scripted (AgentConfig.default.withKnock homeKnock) freshHost knocklessSample ∧
          LostSince scripted (AgentConfig.default.withKnock homeKnock) freshHost knocklessSample)) := by
  refine ⟨_, rfl, ?_, ?_, reachable_unless_lost scripted .default homeKnock freshHost _ knocklessSample ⟨rfl, rfl⟩ rfl⟩
  · unfold Sys.Closed
    decide +kernel
  · unfold Sys.Knocks
    decide +kernel

/-- Then the entry is revoked: SSH stays closed, without knock rules and without any entry. -/
theorem revoke_locks_out : ∃ t : Sys (List Bool), freshHost.Fresh ∧
    Lts.run (Sys.step scripted (AgentConfig.default.withKnock homeKnock)) freshHost
      (knocklessSample ++ [.request (.revoke (.target homeNet))]) = some t ∧ ¬t.Reachable := by
  refine ⟨_, ⟨rfl, rfl⟩, rfl, ?_⟩
  decide +kernel

end Ipgate.Lockout
