-- SUMMARY: A host with a disk that may refuse to be written, and what the requests and the loops go by.
import Ipgate.Agent.Api.Forwards
import Ipgate.Agent.Api.Frames

/-!
# The state file

The host is split into the kernel and the disk. The disk has the state file and the answers
to the next attempts to write it, which may be any. What is in memory beside the counters,
and what is in the file beside them, decides what every request and every loop does.
-/

namespace Ipgate

open Net Act

/-! ## The disk -/

structure Disk where
  /-- What was last written to the state file. -/
  written : State
  /-- How the next attempts to write it end; when there are none left, they succeed. -/
  answers : List (Except String Unit)

/-- The file is replaced as a whole, or stays as it is. -/
def Disk.save (s : State) (d : Disk) : Except String Unit × Disk :=
  match d.answers with
  | [] => (.ok (), { d with written := s })
  | .ok () :: rest => (.ok (), ⟨s, rest⟩)
  | .error e :: rest => (.error e, { d with answers := rest })

structure Machine (κ : Type) where
  kernel : κ
  disk : Disk

/-- A call of the kernel. -/
def Machine.onKernel {κ α : Type} (f : κ → α × κ) (m : Machine κ) : α × Machine κ :=
  ((f m.kernel).1, { m with kernel := (f m.kernel).2 })

section Machine

variable {κ : Type}

/-- The host made of a kernel and a disk. -/
def machine (B : NftBackend κ) : Host (Machine κ) where
  apply c entries := Machine.onKernel (B.apply c entries)
  add entry := Machine.onKernel (B.add entry)
  remove target := Machine.onKernel (B.remove target)
  list := Machine.onKernel B.list
  save s m := ((m.disk.save s).1, { m with disk := (m.disk.save s).2 })

def machineNat (N : NatBackend κ) : NatBackend (Machine κ) where
  applyNat resolved := Machine.onKernel (N.applyNat resolved)
  flushNat := Machine.onKernel N.flushNat

/-! ## The part of the state that counts -/

/-- The state without the counters of changes. -/
def State.content (s : State) : State := { s with revision := 0, forwardRevision := 0 }

theorem State.content_eq {s s' : State} (h : s.content = s'.content) :
    s' = { s with revision := s'.revision, forwardRevision := s'.forwardRevision } := by
  cases s
  cases s'
  simp only [State.content, State.mk.injEq] at h
  simp_all

/-- What decides about the future. -/
structure Seen (κ : Type) where
  store : State
  live : Live
  accepted : RulesetConfig
  kernel : κ
  written : State
  answers : List (Except String Unit)

def seen (w : World (Machine κ)) : Seen κ :=
  ⟨w.store.content, w.live, w.accepted, w.host.kernel, w.host.disk.written.content, w.host.disk.answers⟩

variable {w w' : World (Machine κ)}

theorem store_of_seen (h : seen w = seen w') : ∃ r n, w'.store = { w.store with revision := r, forwardRevision := n } :=
  ⟨_, _, State.content_eq (congrArg Seen.store h)⟩

/-- The operation goes by the content of the state. -/
def ByContent {α : Type} (f : State → α × State) : Prop :=
  ∀ s r n, (f { s with revision := r, forwardRevision := n }).1 = (f s).1 ∧
    (f { s with revision := r, forwardRevision := n }).2.content = (f s).2.content

end Machine

/-! ## Calls -/

section Calls

variable {κ : Type} {B : NftBackend κ} {N : NatBackend κ} {cfg : AgentConfig} {entries : List Entry}

theorem through_onStore {ε α : Type} {f : State → α × State} (hf : ByContent f) :
    Through seen (onStore f : Act (World (Machine κ)) ε α) := by
  intro w w' h
  obtain ⟨r, n, hstore⟩ := store_of_seen h
  obtain ⟨hresult, hcontent⟩ := hf w.store r n
  refine ⟨?_, ?_⟩
  · show Except.ok (f w.store).1 = Except.ok (f w'.store).1
    rw [hstore, hresult]
  · simp only [seen, Seen.mk.injEq] at h ⊢
    refine ⟨?_, h.2⟩
    show (f w.store).2.content = (f w'.store).2.content
    rw [hstore, hcontent]

/-- A call of the kernel. -/
theorem through_kernel {ε α : Type} {m : Act (World (Machine κ)) ε α} {f : κ → Except ε α × κ}
    (hm : ∀ w, m w = ((f w.host.kernel).1, { w with host := { w.host with kernel := (f w.host.kernel).2 } })) :
    Through seen m := by
  intro w w' h
  have hkernel : w.host.kernel = w'.host.kernel := congrArg Seen.kernel h
  rw [hm w, hm w', hkernel]
  refine ⟨rfl, ?_⟩
  simp only [seen, Seen.mk.injEq] at h ⊢
  exact ⟨h.1, h.2.1, h.2.2.1, trivial, h.2.2.2.2⟩

theorem through_callAdd {entry : Entry} : Through seen (callAdd (machine B) entry) :=
  through_kernel fun _ => rfl

theorem through_callRemove {target : IpNet} : Through seen (callRemove (machine B) target) :=
  through_kernel fun _ => rfl

theorem through_callList : Through seen (callList (machine B)) :=
  through_kernel fun _ => rfl

theorem through_installNat {resolved : List ResolvedForward} :
    Through seen (installNat (machineNat N) resolved) := by
  unfold installNat
  cases resolved.isEmpty with
  | true => exact through_kernel (f := N.flushNat) fun _ => rfl
  | false => exact through_kernel (f := N.applyNat resolved) fun _ => rfl

theorem through_callSave : Through seen (callSave (machine B)) := by
  intro w w' h
  simp only [seen, Seen.mk.injEq] at h
  obtain ⟨hstore, hlive, haccepted, hkernel, hwritten, hanswers⟩ := h
  unfold callSave
  simp only [machine, Disk.save]
  rw [← hanswers]
  cases w.host.disk.answers with
  | nil => exact ⟨rfl, by simp [seen, hstore, hlive, haccepted, hkernel]⟩
  | cons a rest =>
    cases a with
    | ok => exact ⟨rfl, by simp [seen, hstore, hlive, haccepted, hkernel]⟩
    | error e => exact ⟨rfl, by simp [seen, hstore, hlive, haccepted, hkernel, hwritten]⟩

theorem through_callApply {c : RulesetConfig} : Through seen (callApply (machine B) c entries) := by
  intro w w' h
  have hkernel : w.host.kernel = w'.host.kernel := congrArg Seen.kernel h
  simp only [seen, Seen.mk.injEq] at h
  obtain ⟨hstore, hlive, haccepted, -, hwritten, hanswers⟩ := h
  unfold callApply
  simp only [machine, Machine.onKernel]
  rw [← hkernel]
  cases B.apply c entries w.host.kernel with
  | mk r k =>
    cases r with
    | ok => exact ⟨rfl, by simp [seen, hstore, hlive, hwritten, hanswers]⟩
    | error e => exact ⟨rfl, by simp [seen, hstore, hlive, haccepted, hwritten, hanswers]⟩

theorem through_saveStore : Through seen (saveStore (machine B)) := through_mapErr through_callSave

theorem through_rejectIf {c : Bool} {e : ApiError} :
    Through seen (rejectIf c e : Act (World (Machine κ)) ApiError Unit) := through_onlyIf through_fail

end Calls

/-! ## Operations of the store -/

section Operations

variable {now : DateTime}

theorem byContent_revoke {target : IpNet} : ByContent fun s => s.revokeByTarget target := by
  intro s r n
  unfold State.revokeByTarget
  dsimp only
  split
  · exact ⟨rfl, rfl⟩
  · exact ⟨rfl, rfl⟩

theorem byContent_prune : ByContent fun s => s.pruneExpired now := by
  intro s r n
  unfold State.pruneExpired
  dsimp only
  split
  · exact ⟨rfl, rfl⟩
  · exact ⟨rfl, rfl⟩

theorem byContent_removeForward {id : ForwardId} : ByContent fun s => s.removeForward id := by
  intro s r n
  unfold State.removeForward
  dsimp only
  split
  · exact ⟨rfl, rfl⟩
  · exact ⟨rfl, rfl⟩

theorem byContent_changeForward {id : ForwardId} {req : AddForwardRequest} : ByContent (changeForward id req) := by
  intro s r n
  unfold changeForward State.updateForward State.findForward
  dsimp only
  cases s.forwards.find? fun f => f.id = id with
  | none => exact ⟨rfl, rfl⟩
  | some rule => exact ⟨rfl, rfl⟩

end Operations

/-! ## Requests and loops -/

section Handlers

variable {κ : Type} {B : NftBackend κ} {N : NatBackend κ} {cfg : AgentConfig} {entries : List Entry} {now : DateTime}

theorem through_applyRuleset {c : RulesetConfig} : Through seen (applyRuleset (machine B) c entries) := by
  have htry : ∀ cands tried firstErr, Through seen (tryCandidates (machine B) c entries cands tried firstErr) := by
    intro cands
    induction cands with
    | nil => exact fun _ _ => through_fail
    | cons cand rest ih =>
      intro tried firstErr
      unfold tryCandidates
      split
      · exact ih tried firstErr
      · refine through_bind (through_attempt (through_mapErr through_callApply)) fun r => ?_
        cases r with
        | ok => exact through_pure
        | error e =>
          cases firstErr with
          | none => exact ih _ _
          | some first =>
            dsimp only
            split
            · exact through_fail
            · exact ih _ _
  exact htry _ _ _

theorem through_record {ε : Type} {live : Live} :
    Through seen (.modify fun w => { w with live := live } : Act (World (Machine κ)) ε Unit) := by
  intro w w' h
  simp only [seen, Seen.mk.injEq] at h
  obtain ⟨hstore, -, haccepted, hkernel, hwritten, hanswers⟩ := h
  exact ⟨rfl, by simp [seen, Act.modify, hstore, haccepted, hkernel, hwritten, hanswers]⟩

theorem through_reapplyRuleset {flags : RulesetFlags} : Through seen (reapplyRuleset (machine B) cfg flags entries) :=
  through_bind (through_mapErr through_applyRuleset) fun _ => through_bind through_record fun _ => through_pure

/-- What a request reads at its start. -/
theorem through_read {ε α : Type} {f : World (Machine κ) → Act (World (Machine κ)) ε α}
    (heq : ∀ w r n, f { w with store := { w.store with revision := r, forwardRevision := n } } = f w)
    (hhost : ∀ w w' : World (Machine κ), w.store = w'.store → w.live = w'.live → f w = f w')
    (hf : ∀ w, Through seen (f w)) : Through seen (.get >>= f) := by
  refine through_get_bind (fun w w' h => ?_) hf
  obtain ⟨r, n, hstore⟩ := store_of_seen h
  rw [← heq w r n]
  exact hhost _ _ hstore.symm (congrArg Seen.live h)

theorem through_commit {f : State → State} (hf : ByContent fun s => ((), f s)) :
    Through seen (commit (machine B) cfg f) := by
  refine through_bind (through_onStore hf) fun _ => through_bind through_saveStore fun _ => ?_
  refine through_read (fun _ _ _ => rfl) (fun w w' hstore hlive => ?_) fun _ => through_pure
  unfold buildSettings
  rw [hstore, hlive]

theorem through_commitPorts {ports : List PublicPort} : Through seen (commitPorts (machine B) cfg ports) := by
  refine through_bind (through_onStore fun _ _ _ => ⟨rfl, rfl⟩) fun _ => through_bind through_saveStore fun _ => ?_
  refine through_read (fun _ _ _ => rfl) (fun w w' hstore hlive => ?_) fun _ => through_pure
  unfold listPublicPorts
  rw [hstore]

theorem through_allow {who : DeviceId} {req : AllowRequest} {id : EntryId} :
    Through seen (allow (machine B) who req now id) :=
  through_bind (through_onStore fun _ _ _ => ⟨rfl, rfl⟩) fun _ =>
    through_bind through_saveStore fun _ => through_bind (through_mapErr through_callAdd) fun _ => through_pure

theorem through_revoke {req : RevokeRequest} : Through seen (revoke (machine B) req) := by
  refine through_read (fun w _ _ => ?_) (fun w w' hstore _ => ?_) fun w => ?_
  · cases req <;> rfl
  · rw [hstore]
  · cases revokeTarget w.store req with
    | none => exact through_fail
    | some target =>
      exact through_bind (through_onStore byContent_revoke) fun _ =>
        through_bind through_rejectIf fun _ => through_bind through_saveStore fun _ => through_mapErr through_callRemove

theorem through_setSshExposure {on : Bool} : Through seen (setSshExposure (machine B) cfg on now) := by
  refine through_read (fun _ _ _ => rfl) (fun w w' hstore _ => ?_) fun w => ?_
  · rw [hstore]
  · refine through_bind through_rejectIf fun _ => ?_
    dsimp only
    generalize (if on then cfg.publicPortCoveringSsh (w.store.rulesetFlags.withSsh on) else none) = covering
    cases covering with
    | some p => exact through_fail
    | none =>
      refine through_bind through_reapplyRuleset fun applied => ?_
      split
      · exact through_bind through_reapplyRuleset fun _ => through_fail
      · exact through_commit fun _ _ _ => ⟨rfl, rfl⟩

theorem through_setForwardExposure {on : Bool} : Through seen (setForwardExposure (machine B) cfg on) := by
  refine through_read (fun _ _ _ => rfl) (fun w w' hstore _ => ?_) fun w => ?_
  · rw [hstore]
  · refine through_bind through_reapplyRuleset fun applied => ?_
    split
    · exact through_fail
    · exact through_commit fun _ _ _ => ⟨rfl, rfl⟩

theorem through_addPublicPort {req : PublicPortRequest} : Through seen (addPublicPort (machine B) cfg req) := by
  refine through_bind through_rejectIf fun _ => ?_
  refine through_read (fun _ _ _ => rfl) (fun w w' hstore _ => ?_) fun w => ?_
  · rw [hstore]
  · dsimp only
    split
    · exact through_commitPorts
    · exact through_bind through_rejectIf fun _ =>
        through_bind through_reapplyRuleset fun _ => through_commitPorts

theorem through_removePublicPort {proto : ForwardProto} {range : PortRange} :
    Through seen (removePublicPort (machine B) cfg proto range) := by
  refine through_read (fun _ _ _ => rfl) (fun w w' hstore _ => ?_) fun w => ?_
  · rw [hstore]
  · exact through_bind through_rejectIf fun _ => through_bind through_reapplyRuleset fun _ => through_commitPorts

theorem through_revokeDevice {id : DeviceId} : Through seen (revokeDevice (machine B) id) :=
  through_bind (through_onStore fun _ _ _ => ⟨rfl, rfl⟩) fun _ =>
    through_bind through_rejectIf fun _ => through_saveStore

theorem through_commitForwards {r : Resolution} :
    Through seen (commitForwards (machine B) (machineNat N) r) :=
  through_bind through_installNat fun _ =>
    through_bind (through_onStore fun _ _ _ => ⟨rfl, rfl⟩) fun _ => through_ignore through_callSave

theorem through_applyNow {env : ForwardRule → HostEnv} :
    Through seen (applyNow (machine B) (machineNat N) env) := by
  refine through_read (fun _ _ _ => rfl) (fun w w' hstore _ => ?_) fun w => ?_
  · rw [hstore]
  · exact through_bind through_commitForwards fun _ => through_pure

theorem through_applyForwards {env : ForwardRule → HostEnv} :
    Through seen (applyForwards (machine B) (machineNat N) env) :=
  through_bind (through_mapErr through_applyNow) fun _ => through_pure

theorem through_viewForward {rule : ForwardRule} :
    Through seen (viewForward rule : Act (World (Machine κ)) ApiError ForwardView) := by
  refine through_read (fun _ _ _ => rfl) (fun w w' hstore _ => ?_) fun _ => through_pure
  rw [hstore]

theorem through_addForward {a : DnatAdapter} {reads : ForwardReads} {who : DeviceId} {req : AddForwardRequest}
    {id : ForwardId} : Through seen (addForward (machine B) (machineNat N) a reads who req now id) :=
  through_bind through_lift fun _ => through_bind (through_onStore fun _ _ _ => ⟨rfl, rfl⟩) fun _ =>
    through_bind through_saveStore fun _ => through_bind through_applyForwards fun _ => through_viewForward

theorem through_updateForward {a : DnatAdapter} {reads : ForwardReads} {id : ForwardId} {req : AddForwardRequest} :
    Through seen (updateForward (machine B) (machineNat N) a reads id req) := by
  refine through_bind through_lift fun _ => through_read (fun _ _ _ => rfl) (fun w w' hstore _ => ?_) fun w => ?_
  · rw [hstore]
  · refine through_bind through_rejectIf fun _ => through_bind (through_onStore byContent_changeForward) fun changed => ?_
    cases changed with
    | none => exact through_fail
    | some rule =>
      exact through_bind through_saveStore fun _ => through_bind through_applyForwards fun _ => through_viewForward

theorem through_removeForward {env : ForwardRule → HostEnv} {id : ForwardId} :
    Through seen (removeForward (machine B) (machineNat N) env id) :=
  through_bind (through_onStore byContent_removeForward) fun _ =>
    through_bind through_rejectIf fun _ => through_bind through_saveStore fun _ => through_applyForwards

theorem through_rebuild : Through seen (rebuild (machine B) cfg) := by
  refine through_read (fun _ _ _ => rfl) (fun w w' hstore _ => ?_) fun w => ?_
  · rw [hstore]
  · refine through_bind (through_attempt through_applyRuleset) fun r => ?_
    cases r with
    | ok applied => exact through_record
    | error e => exact through_pure

theorem through_reconcileTick {O : HashOrder} : Through seen (reconcileTick (machine B) cfg O now) := by
  have hprune : Through seen (pruneAndSnapshot (machine B) now) := by
    refine through_bind (through_onStore byContent_prune) fun _ =>
      through_bind (through_onlyIf (through_ignore through_callSave)) fun _ => ?_
    refine through_read (fun _ _ _ => rfl) (fun w w' hstore _ => ?_) fun _ => through_pure
    rw [hstore]
  refine through_bind hprune fun entries => through_bind (through_attempt through_callList) fun r => ?_
  cases r with
  | ok kernel =>
    refine through_bind (through_forEach (fun target => ?_) _) fun _ =>
      through_forEach (fun _ => through_ignore through_callRemove) _
    unfold addMissing
    split
    · exact through_ignore through_callAdd
    · exact through_pure
  | error e => exact through_rebuild

theorem through_resolveTick {τ : Type} [DecidableEq τ] {hash : List ResolvedForward → τ}
    {env : ForwardRule → HostEnv} {lastHash : Option τ} :
    Through seen (resolveTick (machine B) (machineNat N) hash env lastHash) := by
  refine through_read (fun _ _ _ => rfl) (fun w w' hstore _ => ?_) fun w => ?_
  · rw [hstore]
  · dsimp only
    split
    · exact through_pure
    · refine through_bind (through_attempt through_commitForwards) fun r => ?_
      cases r with
      | ok => exact through_pure
      | error e => exact through_pure

end Handlers

end Ipgate
