-- SUMMARY: The commands for one entry against the full rebuild: what both leave in the allow sets, and when they agree.
import Ipgate.Lib.NftSets
import Ipgate.Agent.Nft.Policy
import Ipgate.Agent.Config

/-!
# One entry at a time

A request is first put into the store and then into the kernel by a command for
its target alone; the reconciler and every change of the settings render the whole
table from the store. `increment_agrees_iff` compares the two.
-/

namespace Ipgate

open Net Nft

/-! ## The commands -/

/-- The seconds an entry has left, at least one; none if it never expires. -/
def timeoutLeft (now : DateTime) (e : Entry) : Option Nat :=
  e.expiresAt.map fun t => (max (numSeconds (t - now)) 1).toNat

def addElement (e : Entry) (now : DateTime) : ElementCmd SetName :=
  .add table (allowSet (netFamily e.target)) (.net e.target (timeoutLeft now e))

def deleteElement (target : IpNet) : ElementCmd SetName := .delete table (allowSet (netFamily target)) target

/-- The script for one entry is the command for its target. -/
theorem addElementScript_eq (e : Entry) (now : DateTime) :
    addElementScript e.target e.expiresAt now = (addElement e now).text := by
  unfold addElementScript
  rw [← elementToken_text]
  rfl

theorem deleteElementScript_eq (target : IpNet) : deleteElementScript target = (deleteElement target).text := rfl

/-! ## What a rebuild leaves -/

variable {cfg : RulesetConfig} {entries : List Entry} {now : DateTime} {n : IpNet}

/-- The unexpired entries for one target. -/
def activeFor (entries : List Entry) (now : DateTime) (n : IpNet) : List Entry :=
  entries.filter fun e => !e.isExpired now && decide (e.target = n)

theorem mem_activeFor {e : Entry} : e ∈ activeFor entries now n ↔
    e ∈ entries ∧ e.isExpired now = false ∧ e.target = n := by
  simp [activeFor]

theorem allowElems_eq (f : Family) : allowElems f entries now =
    (activeOf f entries now).map fun e => .net e.target (timeoutLeft now e) := rfl

/-- The entries of one family for a target are those of its own family. -/
theorem activeOf_filter (f : Family) : (activeOf f entries now).filter (fun e => e.target = n) =
    if f = netFamily n then activeFor entries now n else [] := by
  unfold activeOf activeFor
  rw [List.filter_filter]
  split
  · next hf =>
    refine List.filter_congr fun e _ => ?_
    by_cases he : e.target = n
    · simp [he, hf]
    · simp [he]
  · next hf =>
    refine List.filter_eq_nil_iff.mpr fun e _ hmem => hf ?_
    obtain ⟨he, -, hfam⟩ : e.target = n ∧ e.isExpired now = false ∧ netFamily e.target = f := by simpa using hmem
    rw [← hfam, he]

theorem members_eq_putAll : (rulesetTable cfg entries now).members =
    (Members.putAll (fun _ _ => none) .allow4 (allowElems .ipv4 entries now)).putAll .allow6
      (allowElems .ipv6 entries now) := by
  have hports (M : Members SetName) (set : SetName) (ports : List PortRange) :
      M.putAll set (portElems ports) = M := Members.putAll_ports ..
  cases hk : cfg.knock.isSome <;> simp [Table.members, rulesetTable, hk, hports]

/-- After a rebuild a network is in the set of its family, with the timeout of the last
unexpired entry for it, and in no other. -/
theorem members_rulesetTable (s : SetName) : (rulesetTable cfg entries now).members s n =
    if s = allowSet (netFamily n) then (activeFor entries now n).getLast?.map (timeoutLeft now) else none := by
  have hset (M : Members SetName) (f : Family) : M.putAll (allowSet f) (allowElems f entries now) (allowSet f) n =
      ((if f = netFamily n then activeFor entries now n else []).getLast?.map (timeoutLeft now)).or
        (M (allowSet f) n) := by
    rw [allowElems_eq, Members.putAll_nets, activeOf_filter]
  rw [members_eq_putAll]
  cases s with
  | allow4 =>
    rw [Members.putAll_other (by decide)]
    refine (hset _ .ipv4).trans ?_
    cases netFamily n <;> simp [allowSet]
  | allow6 =>
    refine (hset _ .ipv6).trans ?_
    rw [Members.putAll_other (by decide)]
    cases netFamily n <;> simp [allowSet]
  | _ =>
    rw [Members.putAll_other (by decide), Members.putAll_other (by decide)]
    cases netFamily n <;> rfl

theorem exists_active_of_member {set : SetName} (h : (rulesetTable cfg entries now).members set n ≠ none) :
    ∃ e ∈ entries, e.isExpired now = false ∧ e.target = n := by
  rw [members_rulesetTable] at h
  split at h
  · cases hlast : (activeFor entries now n).getLast? with
    | none =>
      rw [hlast] at h
      exact (h rfl).elim
    | some e => exact ⟨e, mem_activeFor.mp (List.mem_of_getLast? hlast)⟩
  · exact (h rfl).elim

/-! ## Timeouts -/

/-- The timeout is at least one second, and no longer than the entry lasts if that is more. -/
def Lasts (e : Entry) (now : DateTime) (secs : Nat) : Prop :=
  ∃ t, e.expiresAt = some t ∧ 1 ≤ secs ∧ secs * 1000000000 ≤ max 1000000000 (t - now)

theorem numSeconds_le (d : Int) : max (numSeconds d) 1 * 1000000000 ≤ max 1000000000 d := by
  unfold numSeconds
  cases Int.le_total 0 d with
  | inl hpos =>
    rw [Int.tdiv_eq_ediv_of_nonneg hpos]
    omega
  | inr hneg =>
    have hzero : d.tdiv 1000000000 ≤ 0 := by
      have h := Int.tdiv_nonneg (a := -d) (b := 1000000000) (by omega) (by decide)
      rw [Int.neg_tdiv] at h
      omega
    omega

theorem timeoutLeft_lasts {e : Entry} {secs : Nat} (h : timeoutLeft now e = some secs) : Lasts e now secs := by
  unfold timeoutLeft at h
  obtain ⟨t, ht, rfl⟩ := Option.map_eq_some_iff.mp h
  have hbound := numSeconds_le (t - now)
  refine ⟨t, ht, by omega, ?_⟩
  rw [Int.toNat_of_nonneg (by omega)]
  exact hbound

theorem member_lasts {set : SetName} {secs : Nat}
    (h : (rulesetTable cfg entries now).members set n = some (some secs)) :
    ∃ e ∈ entries, e.target = n ∧ Lasts e now secs := by
  rw [members_rulesetTable] at h
  split at h
  · obtain ⟨e, he, hsecs⟩ := Option.map_eq_some_iff.mp h
    obtain ⟨hmem, -, htarget⟩ := mem_activeFor.mp (List.mem_of_getLast? he)
    exact ⟨e, hmem, htarget, timeoutLeft_lasts hsecs⟩
  · cases h

/-! ## The two paths -/

variable {s : State} {req : AllowRequest} {who : DeviceId} {id : EntryId} {target : IpNet}

theorem activeFor_allow : activeFor (s.allow req who now id).2.entries now n =
    if n = req.target then
      if (s.allow req who now id).1.isExpired now then [] else [(s.allow req who now id).1]
    else activeFor s.entries now n := by
  have hentries : (s.allow req who now id).2.entries =
      s.entries.filter (fun e => e.target ≠ req.target) ++ [(s.allow req who now id).1] := rfl
  have htarget : (s.allow req who now id).1.target = req.target := rfl
  unfold activeFor
  rw [hentries, List.filter_append, List.filter_filter]
  split
  · next hn =>
    subst hn
    -- The former entries for the target are gone, so the new one is the last.
    have hold : s.entries.filter (fun e => (!e.isExpired now && decide (e.target = req.target)) &&
        decide (e.target ≠ req.target)) = [] := by
      refine List.filter_eq_nil_iff.mpr fun e _ he => ?_
      simp at he
      exact he.2 he.1.2
    rw [hold, List.nil_append, List.filter_singleton, htarget]
    cases (s.allow req who now id).1.isExpired now <;> simp
  · next hn =>
    have hnew : (!(s.allow req who now id).1.isExpired now && decide ((s.allow req who now id).1.target = n)) = false := by
      simp [Ne.symm hn]
    rw [List.filter_singleton, hnew, cond_false, List.append_nil]
    refine List.filter_congr fun e _ => ?_
    by_cases he : e.target = n
    · simp [he, hn]
    · simp [he]

theorem activeFor_revoke : activeFor (s.revokeByTarget target).2.entries now n =
    if n = target then [] else activeFor s.entries now n := by
  rw [State.revokeByTarget_entries]
  unfold activeFor
  rw [List.filter_filter]
  split
  · next hn =>
    refine List.filter_eq_nil_iff.mpr fun e _ he => ?_
    simp [hn] at he
    exact he.2 he.1.2
  · next hn =>
    refine List.filter_congr fun e _ => ?_
    by_cases he : e.target = n
    · simp [he, hn]
    · simp [he]

/-- The command of a request leaves what a rebuild leaves, unless the request has expired. -/
theorem addElement_agrees_iff :
    (addElement (s.allow req who now id).1 now).exec (rulesetTable cfg s.entries now).members =
        (rulesetTable cfg (s.allow req who now id).2.entries now).members ↔
      (s.allow req who now id).1.isExpired now = false := by
  constructor
  · intro h
    -- An expired entry is in no rebuild, and yet the command puts it in.
    have hkey := congrFun (congrFun h (allowSet (netFamily req.target))) req.target
    rw [members_rulesetTable, if_pos rfl, activeFor_allow, if_pos rfl] at hkey
    cases hexp : (s.allow req who now id).1.isExpired now with
    | false => rfl
    | true =>
      rw [hexp, if_pos rfl] at hkey
      have hput : (addElement (s.allow req who now id).1 now).exec (rulesetTable cfg s.entries now).members
          (allowSet (netFamily req.target)) req.target = some (timeoutLeft now (s.allow req who now id).1) :=
        if_pos ⟨rfl, rfl⟩
      rw [hput] at hkey
      cases hkey
  · intro hexp
    funext set n
    have hput : (addElement (s.allow req who now id).1 now).exec (rulesetTable cfg s.entries now).members set n =
        if set = allowSet (netFamily req.target) ∧ n = req.target then
          some (timeoutLeft now (s.allow req who now id).1) else (rulesetTable cfg s.entries now).members set n := rfl
    rw [hput, members_rulesetTable, members_rulesetTable, activeFor_allow, hexp]
    by_cases hn : n = req.target
    · by_cases hset : set = allowSet (netFamily req.target) <;> simp [hn, hset]
    · simp [hn]

theorem deleteElement_agrees (cfg : RulesetConfig) (s : State) (target : IpNet) (now : DateTime) :
    (deleteElement target).exec (rulesetTable cfg s.entries now).members =
      (rulesetTable cfg (s.revokeByTarget target).2.entries now).members := by
  funext set n
  have hremove : (deleteElement target).exec (rulesetTable cfg s.entries now).members set n =
      if set = allowSet (netFamily target) ∧ n = target then none
      else (rulesetTable cfg s.entries now).members set n := rfl
  rw [hremove, members_rulesetTable, members_rulesetTable, activeFor_revoke]
  by_cases hn : n = target
  · by_cases hset : set = allowSet (netFamily target) <;> simp [hn, hset]
  · simp [hn]

/-- The commands for one entry do what a rebuild would do: for a request and for a target that
is revoked, without putting in what has expired, and with timeouts that fit. -/
structure IncrementAgrees (cfg : RulesetConfig) (s : State) (req : AllowRequest) (who : DeviceId) (id : EntryId)
    (target : IpNet) (now : DateTime) : Prop where
  /-- The scripts are the commands. -/
  scripts : addElementScript req.target req.expiresAt now = (addElement (s.allow req who now id).1 now).text ∧
    deleteElementScript target = (deleteElement target).text
  add : (addElement (s.allow req who now id).1 now).exec (rulesetTable cfg s.entries now).members =
    (rulesetTable cfg (s.allow req who now id).2.entries now).members
  delete : (deleteElement target).exec (rulesetTable cfg s.entries now).members =
    (rulesetTable cfg (s.revokeByTarget target).2.entries now).members
  /-- What is in a set after a script was there before or belongs to an unexpired entry. -/
  added : ∀ M set n, (addElement (s.allow req who now id).1 now).exec M set n ≠ none →
    M set n ≠ none ∨ (n = req.target ∧ (s.allow req who now id).1.isExpired now = false)
  rendered : ∀ set n, (rulesetTable cfg s.entries now).members set n ≠ none →
    ∃ e ∈ s.entries, e.isExpired now = false ∧ e.target = n
  addedLasts : ∀ secs, timeoutLeft now (s.allow req who now id).1 = some secs →
    Lasts (s.allow req who now id).1 now secs
  renderedLasts : ∀ set n secs, (rulesetTable cfg s.entries now).members set n = some (some secs) →
    ∃ e ∈ s.entries, e.target = n ∧ Lasts e now secs

/-- The incremental path agrees with the rebuild exactly for requests that have not expired
when they are made. -/
theorem increment_agrees_iff (cfg : RulesetConfig) (s : State) (req : AllowRequest) (who : DeviceId) (id : EntryId)
    (target : IpNet) (now : DateTime) :
    IncrementAgrees cfg s req who id target now ↔ ∀ t, req.expiresAt = some t → now < t := by
  have hexpired : (s.allow req who now id).1.isExpired now = false ↔ ∀ t, req.expiresAt = some t → now < t := by
    show Entry.isExpired ⟨id, req.target, req.note, req.expiresAt, now, who⟩ now = false ↔ _
    cases h : req.expiresAt with
    | none => simp [Entry.isExpired]
    | some t => simp [Entry.isExpired]
  rw [← hexpired]
  constructor
  · intro h
    exact addElement_agrees_iff.mp h.add
  · intro h
    refine ⟨⟨addElementScript_eq (s.allow req who now id).1 now, deleteElementScript_eq target⟩,
      addElement_agrees_iff.mpr h, deleteElement_agrees cfg s target now, fun M set n hmem => ?_,
      fun set n => exists_active_of_member, fun secs => timeoutLeft_lasts, fun set n secs => member_lasts⟩
    by_cases hn : n = req.target
    · exact .inr ⟨hn, h⟩
    · refine .inl fun hnone => hmem ?_
      exact (if_neg fun hs => hn hs.2).trans hnone

/-- A request that had expired a second ago. -/
theorem expired_request_disagrees :
    ¬IncrementAgrees (AgentConfig.default.rulesetWith State.default.rulesetFlags) State.default
      ⟨.v4 (Cidr.host 16909060), "", some 0⟩ ⟨0⟩ ⟨0⟩ (.v4 (Cidr.host 16909060)) 1000000000 := by
  intro h
  have hkey := h.added (fun _ _ => none) .allow4 (.v4 (Cidr.host 16909060)) (by decide +kernel)
  revert hkey
  decide +kernel

end Ipgate
