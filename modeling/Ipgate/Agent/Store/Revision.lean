-- SUMMARY: store.rs: all calls on the store as one type, and what its two counters tell about a run of calls.
import Ipgate.Lib.Lts
import Ipgate.Agent.Store

/-!
# Revisions

The store counts the changes of the allowlist and of the forwards, and clients keep what they have
read for as long as the count is the same. A counter has 64 bits in the code, and is taken not to
run over.
-/

namespace Ipgate.Revision

open Net

/-! ## Calls on the store -/

inductive Call where
  | allow (req : AllowRequest) (who : DeviceId) (now : DateTime) (id : EntryId)
  | revokeByTarget (target : IpNet)
  | pruneExpired (now : DateTime)
  | addForward (req : AddForwardRequest) (who : DeviceId) (now : DateTime) (id : ForwardId)
  | updateForward (id : ForwardId) (req : AddForwardRequest)
  | removeForward (id : ForwardId)
  | setResolved (map : ForwardId → Option (BitVec 32))
  | addDevice (device : Device)
  | removeDevice (id : DeviceId)
  | touchDevice (id : DeviceId) (now : DateTime)
  | setPublicPorts (ports : List PublicPort)
  | setSshAllowlistOnly (on : Bool)
  | setForwardAllowlistOnly (on : Bool)

/-- What a call returns. -/
inductive Reply where
  | allowed (entry : Entry)
  | revoked (removed : Bool)
  | pruned (removed : List IpNet)
  | forwardAdded (rule : ForwardRule)
  | forwardUpdated (rule : Option ForwardRule)
  | forwardRemoved (removed : Bool)
  | deviceRemoved (removed : Bool)
  | flagSet (changed : Bool)
  | done

def Call.run (s : State) : Call → Reply × State
  | .allow req who now id => (.allowed (s.allow req who now id).1, (s.allow req who now id).2)
  | .revokeByTarget target => (.revoked (s.revokeByTarget target).1, (s.revokeByTarget target).2)
  | .pruneExpired now => (.pruned (s.pruneExpired now).1, (s.pruneExpired now).2)
  | .addForward req who now id => (.forwardAdded (s.addForward req who now id).1, (s.addForward req who now id).2)
  | .updateForward id req =>
    match s.updateForward id req with
    | some (rule, s') => (.forwardUpdated (some rule), s')
    | none => (.forwardUpdated none, s)
  | .removeForward id => (.forwardRemoved (s.removeForward id).1, (s.removeForward id).2)
  | .setResolved map => (.done, s.setResolved map)
  | .addDevice device => (.done, s.addDevice device)
  | .removeDevice id => (.deviceRemoved (s.removeDevice id).1, (s.removeDevice id).2)
  | .touchDevice id now => (.done, s.touchDevice id now)
  | .setPublicPorts ports => (.done, s.setPublicPorts ports)
  | .setSshAllowlistOnly on => (.flagSet (s.setSshAllowlistOnly on).1, (s.setSshAllowlistOnly on).2)
  | .setForwardAllowlistOnly on => (.flagSet (s.setForwardAllowlistOnly on).1, (s.setForwardAllowlistOnly on).2)

/-- The call has added an entry, or says that it has removed some. -/
def Reply.tellsEntries : Reply → Bool
  | .allowed _ => true
  | .revoked removed => removed
  | .pruned removed => !removed.isEmpty
  | _ => false

/-- The call has added a forward, or says that it has changed or removed one. -/
def Reply.tellsForwards : Reply → Bool
  | .forwardAdded _ => true
  | .forwardUpdated rule => rule.isSome
  | .forwardRemoved removed => removed
  | _ => false

def step (s : State) (c : Call) : Option State := some (c.run s).2

/-! ## One call -/

section Call

variable {α : Type} {count : State → Nat} {list : State → List α} {tells : Reply → Bool} {s t u : State}
variable {c : Call} {cs : List Call}

/-- The counter goes up by one with a change that is told, and without one the list stays. -/
structure Counts (count : State → Nat) (list : State → List α) (tells : Reply → Bool) (s : State)
    (r : Reply × State) : Prop where
  counted : count r.2 = count s + if tells r.1 then 1 else 0
  silent : tells r.1 = false → list r.2 = list s

theorem counts_entries (s : State) (c : Call) : Counts State.revision State.entries Reply.tellsEntries s (c.run s) := by
  cases c with
  | allow req who now id => exact ⟨rfl, fun h => by cases h⟩
  | revokeByTarget target =>
    unfold Call.run State.revokeByTarget
    dsimp only
    -- the call counts when the list gets shorter; as long as before, it is the same list
    by_cases hlen : (s.entries.filter fun e => e.target ≠ target).length = s.entries.length
    · rw [if_neg (not_not.mpr hlen)]
      exact ⟨rfl, fun _ => List.filter_sublist.eq_of_length hlen⟩
    · rw [if_pos hlen]
      exact ⟨rfl, fun h => by cases h⟩
  | pruneExpired now =>
    unfold Call.run State.pruneExpired
    dsimp only
    -- nothing has expired, so nothing is taken out
    by_cases hnone : ((s.entries.filter fun e => e.isExpired now).map Entry.target).isEmpty = true
    · have hlive : ∀ e ∈ s.entries, (!e.isExpired now) = true := by
        simpa using hnone
      rw [if_pos hnone]
      exact ⟨by simp [Reply.tellsEntries, hnone], fun _ => List.filter_eq_self.mpr hlive⟩
    · rw [if_neg hnone]
      exact ⟨by simp [Reply.tellsEntries, hnone], fun h => by simp [Reply.tellsEntries, hnone] at h⟩
  | addForward req who now id => exact ⟨rfl, fun _ => rfl⟩
  | updateForward id req =>
    unfold Call.run State.updateForward
    dsimp only
    cases s.findForward id with
    | none => exact ⟨rfl, fun _ => rfl⟩
    | some rule => exact ⟨rfl, fun _ => rfl⟩
  | removeForward id =>
    unfold Call.run State.removeForward
    dsimp only
    split
    · exact ⟨rfl, fun _ => rfl⟩
    · exact ⟨rfl, fun _ => rfl⟩
  | setResolved map => exact ⟨rfl, fun _ => rfl⟩
  | addDevice device => exact ⟨rfl, fun _ => rfl⟩
  | removeDevice id => exact ⟨rfl, fun _ => rfl⟩
  | touchDevice id now => exact ⟨rfl, fun _ => rfl⟩
  | setPublicPorts ports => exact ⟨rfl, fun _ => rfl⟩
  | setSshAllowlistOnly on => exact ⟨rfl, fun _ => rfl⟩
  | setForwardAllowlistOnly on => exact ⟨rfl, fun _ => rfl⟩

theorem counts_forwards (s : State) (c : Call) :
    Counts State.forwardRevision State.forwards Reply.tellsForwards s (c.run s) := by
  cases c with
  | allow req who now id => exact ⟨rfl, fun _ => rfl⟩
  | revokeByTarget target =>
    unfold Call.run State.revokeByTarget
    dsimp only
    split
    · exact ⟨rfl, fun _ => rfl⟩
    · exact ⟨rfl, fun _ => rfl⟩
  | pruneExpired now =>
    unfold Call.run State.pruneExpired
    dsimp only
    split
    · exact ⟨rfl, fun _ => rfl⟩
    · exact ⟨rfl, fun _ => rfl⟩
  | addForward req who now id => exact ⟨rfl, fun h => by cases h⟩
  | updateForward id req =>
    unfold Call.run State.updateForward
    dsimp only
    cases s.findForward id with
    | none => exact ⟨rfl, fun _ => rfl⟩
    | some rule => exact ⟨rfl, fun h => by cases h⟩
  | removeForward id =>
    unfold Call.run State.removeForward
    dsimp only
    -- as for the entries: the list is told to change by its length
    by_cases hlen : (s.forwards.filter fun f => f.id ≠ id).length = s.forwards.length
    · rw [if_neg (not_not.mpr hlen)]
      exact ⟨rfl, fun _ => List.filter_sublist.eq_of_length hlen⟩
    · rw [if_pos hlen]
      exact ⟨rfl, fun h => by cases h⟩
  | setResolved map => exact ⟨rfl, fun _ => rfl⟩
  | addDevice device => exact ⟨rfl, fun _ => rfl⟩
  | removeDevice id => exact ⟨rfl, fun _ => rfl⟩
  | touchDevice id now => exact ⟨rfl, fun _ => rfl⟩
  | setPublicPorts ports => exact ⟨rfl, fun _ => rfl⟩
  | setSshAllowlistOnly on => exact ⟨rfl, fun _ => rfl⟩
  | setForwardAllowlistOnly on => exact ⟨rfl, fun _ => rfl⟩

/-! ## Runs of calls -/

/-- The counter does not go down, and where it is the same the list is. -/
structure Identifies (count : State → Nat) (list : State → List α) (s t : State) : Prop where
  le : count s ≤ count t
  same : count s = count t → list s = list t

theorem Identifies.refl (s : State) : Identifies count list s s := ⟨Nat.le_refl _, fun _ => rfl⟩

theorem Identifies.trans (hst : Identifies count list s t) (htu : Identifies count list t u) :
    Identifies count list s u where
  le := Nat.le_trans hst.le htu.le
  same heq := by
    have hle := hst.le
    have hle' := htu.le
    exact (hst.same (by omega)).trans (htu.same (by omega))

theorem Counts.identifies {r : Reply × State} (h : Counts count list tells s r) : Identifies count list s r.2 := by
  have hcounted := h.counted
  cases htells : tells r.1 with
  | true =>
    rw [htells, if_pos rfl] at hcounted
    exact ⟨by omega, fun heq => by omega⟩
  | false =>
    rw [htells, if_neg Bool.false_ne_true] at hcounted
    exact ⟨by omega, fun _ => (h.silent htells).symm⟩

/-- What holds of one call holds from the beginning of a run of calls to its end. -/
theorem identifies_run (hcall : ∀ (s : State) (c : Call), Counts count list tells s (c.run s))
    (hrun : Lts.run step s cs = some t) : Identifies count list s t := by
  refine Lts.run_relation Identifies.refl (fun _ _ _ => Identifies.trans) (fun u c u' hu => ?_) hrun
  cases hu
  exact (hcall u c).identifies

/-- At any point `s` and any later point `t` of a run, equal revisions mean equal lists; and at every point
each call counts what it has changed. -/
theorem revisions_identify_content (ht : Lts.run step s cs = some t) :
    Identifies State.revision State.entries s t ∧ Identifies State.forwardRevision State.forwards s t ∧
      ∀ c : Call, Counts State.revision State.entries Reply.tellsEntries s (c.run s) ∧
        Counts State.forwardRevision State.forwards Reply.tellsForwards s (c.run s) :=
  ⟨identifies_run counts_entries ht, identifies_run counts_forwards ht,
    fun c => ⟨counts_entries s c, counts_forwards s c⟩⟩

/-- An entry is counted when it is added, and again when it is pruned. -/
theorem revisions_identify_pruned :
    let target : IpNet := .v4 (Cidr.host 0xc0000209#32)
    let allow : Call := .allow ⟨target, "", some 5⟩ ⟨1⟩ 0 ⟨2⟩
    let s := (allow.run State.default).2
    let t := (Call.run s (.pruneExpired 5)).2
    Identifies State.revision State.entries s t ∧ s.revision = 1 ∧ t.revision = 2 := by
  intro target allow s t
  have ht : Lts.run step s [.pruneExpired 5] = some t := rfl
  exact ⟨(revisions_identify_content ht).1, by decide, by decide⟩

end Call

end Ipgate.Revision
