-- SUMMARY: When the kernel can load the full ruleset: never with overlapping targets, and the store lets them in.
import Ipgate.Lib.Lts
import Ipgate.Agent.Nft.Policy
import Ipgate.Agent.Config

/-!
# Loading the full ruleset

`nft` refuses a transaction whose interval sets list overlapping elements. The
port sets are merged before they are rendered and can always be loaded. The
allow sets list the targets as they are stored, and the store compares targets by
spelling only.
-/

namespace Ipgate

open Net Nft

/-! ## What the table needs -/

section Table

variable {cfg : RulesetConfig} {entries : List Entry} {now : DateTime} {f : Family} {ports : List PortRange}

/-- No two targets have an address in common. -/
def Separate (entries : List Entry) : Prop := entries.Pairwise fun d e => ¬d.target.Overlaps e.target

/-- The merged port ranges leave gaps between them. -/
theorem portElems_disjoint : (portElems ports).Pairwise Elem.Disjoint := by
  unfold portElems
  rw [List.pairwise_map]
  refine (PortRange.spans.merge_gap ports).imp ?_
  intro r r' hgap
  apply Elem.disjoint_ports
  have hlt : r.stop.toNat + 1 < r'.start.toNat := hgap
  rw [UInt16.lt_iff_toNat_lt]
  omega

theorem allowElems_disjoint : (allowElems f entries now).Pairwise Elem.Disjoint ↔
    Separate (activeOf f entries now) := by
  unfold allowElems
  rw [List.pairwise_map]
  simp only [Elem.disjoint_net, Separate]

theorem rulesetTable_loadable_iff : (rulesetTable cfg entries now).Loadable ↔
    Separate (activeOf .ipv4 entries now) ∧ Separate (activeOf .ipv6 entries now) := by
  rw [← allowElems_disjoint, ← allowElems_disjoint]
  cases hk : cfg.knock.isSome <;>
    simp [Table.Loadable, rulesetTable, hk, portElems_disjoint]

/-- Targets of different families have no address in common. -/
theorem netFamily_of_overlaps {m n : IpNet} (h : m.Overlaps n) : netFamily m = netFamily n := by
  obtain ⟨a, hm, hn⟩ := IpNet.overlaps_iff.mp h
  rw [netFamily_of_contains hm, netFamily_of_contains hn]

/-- Before any of them expires, all entries are active. -/
theorem exists_before_expiry (entries : List Entry) :
    ∃ now : DateTime, ∀ e ∈ entries, e.isExpired now = false := by
  induction entries with
  | nil => exact ⟨0, by simp⟩
  | cons e es ih =>
    obtain ⟨now, hnow⟩ := ih
    obtain ⟨t, ht⟩ : ∃ t : DateTime, e.isExpired t = false := by
      cases hexp : e.expiresAt with
      | none => exact ⟨0, by simp [Entry.isExpired, hexp]⟩
      | some t =>
        refine ⟨t - 1, ?_⟩
        rw [Entry.isExpired, hexp]
        exact decide_eq_false (Int.not_le.mpr (Int.sub_one_lt_of_le (Int.le_refl t)))
    refine ⟨min t now, List.forall_mem_cons.mpr ⟨?_, fun d hd => ?_⟩⟩
    · exact not_expired_of_le (Int.min_le_left ..) ht
    · exact not_expired_of_le (Int.min_le_right ..) (hnow d hd)

/-- The entries that are active at some time are all entries, and no more. -/
theorem loadable_always_iff : (∀ cfg now, (rulesetTable cfg entries now).Loadable) ↔ Separate entries := by
  simp only [rulesetTable_loadable_iff]
  constructor
  · intro h
    obtain ⟨now, hnow⟩ := exists_before_expiry entries
    have hfam : ∀ f, activeOf f entries now = entries.filter fun e => decide (netFamily e.target = f) := by
      intro f
      exact List.filter_congr fun e he => by simp [hnow e he]
    obtain ⟨h4, h6⟩ := h (AgentConfig.default.rulesetWith State.default.rulesetFlags) now
    rw [hfam, Separate, List.pairwise_filter] at h4 h6
    refine (h4.and h6).imp ?_
    intro d e hde hmeet
    have hsame := netFamily_of_overlaps hmeet
    cases hd : netFamily d.target with
    | ipv4 => exact hde.1 (by simpa using hd) (by simpa [← hsame] using hd) hmeet
    | ipv6 => exact hde.2 (by simpa using hd) (by simpa [← hsame] using hd) hmeet
  · intro h cfg now
    exact ⟨h.filter _, h.filter _⟩

end Table

/-! ## What the store lets in -/

/-- What changes the entries of the store. -/
inductive Change where
  | allow (req : AllowRequest) (who : DeviceId) (now : DateTime) (id : EntryId)
  | revokeByTarget (target : IpNet)
  | pruneExpired (now : DateTime)

def State.change (s : State) : Change → State
  | .allow req who now id => (s.allow req who now id).2
  | .revokeByTarget target => (s.revokeByTarget target).2
  | .pruneExpired now => (s.pruneExpired now).2

def changeStep (s : State) (c : Change) : Option State := some (s.change c)

/-- The full ruleset of the store can be loaded, with any settings and at any time. -/
def AlwaysLoads (s : State) : Prop := ∀ cfg now, (rulesetTable cfg s.entries now).Loadable

/-- The change admits a target that overlaps another one stored. -/
def Clashes (s : State) : Change → Prop
  | .allow req _ _ _ => ∃ e ∈ s.entries, e.target ≠ req.target ∧ e.target.Overlaps req.target
  | _ => False

variable {s : State}

theorem separate_allow_iff {req : AllowRequest} {who : DeviceId} {now : DateTime} {id : EntryId}
    (h : Separate s.entries) : Separate (s.allow req who now id).2.entries ↔
      ∀ e ∈ s.entries, e.target ≠ req.target → ¬e.target.Overlaps req.target := by
  unfold Separate State.allow
  rw [List.pairwise_append]
  simp only [List.mem_filter, decide_eq_true_eq, List.mem_singleton, forall_eq, and_imp,
    List.pairwise_singleton, true_and]
  exact ⟨And.right, fun hnew => ⟨h.filter _, hnew⟩⟩

/-- A change keeps the targets apart exactly when it is no clash. -/
theorem separate_change_iff {c : Change} (h : Separate s.entries) :
    Separate (s.change c).entries ↔ ¬Clashes s c := by
  cases c with
  | allow req who now id =>
    unfold State.change
    rw [separate_allow_iff h, Clashes]
    push Not
    rfl
  | revokeByTarget target =>
    unfold State.change
    rw [State.revokeByTarget_entries]
    exact iff_of_true (h.filter _) id
  | pruneExpired now =>
    have hentries : (s.pruneExpired now).2.entries = s.entries.filter fun e => !e.isExpired now := by
      simp only [State.pruneExpired]
      split <;> rfl
    unfold State.change
    rw [hentries]
    exact iff_of_true (h.filter _) id

/-- From the empty store, the full ruleset can be loaded after every change exactly
when no target is admitted that overlaps another one stored. -/
theorem always_loads_iff (cs : List Change) :
    Lts.Always changeStep AlwaysLoads State.default cs ↔
      Lts.StepsMeet changeStep (fun s c => ¬Clashes s c) State.default cs := by
  obtain ⟨s', hrun⟩ := Lts.exists_run (f := State.change) State.default cs
  refine Lts.always_iff_stepsMeet ?_ ?_ hrun
  · intro s c s' hs hstep
    cases hstep
    unfold AlwaysLoads at hs ⊢
    rw [loadable_always_iff] at hs ⊢
    exact separate_change_iff hs
  · exact loadable_always_iff.mpr List.Pairwise.nil

/-- Two successful requests, for a network and for a part of it. -/
theorem nested_targets_not_loadable :
    ¬Lts.Always changeStep AlwaysLoads State.default
      [.allow ⟨.v4 ⟨ipv4 10 0 0 0, 8, by decide⟩, "", none⟩ ⟨0⟩ 0 ⟨0⟩,
        .allow ⟨.v4 ⟨ipv4 10 1 0 0, 16, by decide⟩, "", none⟩ ⟨0⟩ 0 ⟨1⟩] := by
  intro h
  have hloads := h _ [] _ (List.append_nil _).symm rfl
  unfold AlwaysLoads at hloads
  rw [loadable_always_iff, Separate] at hloads
  revert hloads
  decide +kernel

end Ipgate
