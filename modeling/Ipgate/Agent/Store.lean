-- SUMMARY: The persistent state of the agent and the operations on it.
import Mathlib.Data.List.Nodup
import Ipgate.Proto.Forward

/-!
# The store

What the agent keeps in `state.json`: the allowlist, the paired devices, the port
forwards with the addresses last resolved for them, and the settings that can be
changed at run time. Fresh identifiers are drawn by the caller.
-/

namespace Ipgate

open Net

structure State where
  entries : List Entry
  /-- The devices that may connect. -/
  devices : List Device
  /-- Counts the changes of the allowlist. -/
  revision : Nat
  forwards : List ForwardRule
  /-- Counts the changes of the forwards. -/
  forwardRevision : Nat
  /-- The address each forward was last resolved to. -/
  resolved : ForwardId → Option (BitVec 32)
  sshAllowlistOnly : Bool
  forwardAllowlistOnly : Bool
  /-- Public ports that clients added. -/
  publicPorts : List PublicPort

/-- The store of a fresh installation: SSH and forwards are open. -/
def State.default : State where
  entries := []
  devices := []
  revision := 0
  forwards := []
  forwardRevision := 0
  resolved _ := none
  sshAllowlistOnly := false
  forwardAllowlistOnly := false
  publicPorts := []

/-- The settings the rendering of the ruleset needs. -/
structure RulesetFlags where
  sshAllowlistOnly : Bool
  forwardAllowlistOnly : Bool
  publicPorts : List PublicPort
  deriving DecidableEq

namespace RulesetFlags

def withSsh (f : RulesetFlags) (on : Bool) : RulesetFlags := { f with sshAllowlistOnly := on }

def withForward (f : RulesetFlags) (on : Bool) : RulesetFlags := { f with forwardAllowlistOnly := on }

def withPorts (f : RulesetFlags) (ports : List PublicPort) : RulesetFlags := { f with publicPorts := ports }

end RulesetFlags

namespace State

/-! ## The allowlist -/

def findById (s : State) (id : EntryId) : Option Entry := s.entries.find? fun e => e.id = id

/-- Admit a target; an entry for the same spelling of the target is replaced. -/
def allow (s : State) (req : AllowRequest) (who : DeviceId) (now : DateTime) (id : EntryId) :
    Entry × State :=
  let entry : Entry := ⟨id, req.target, req.note, req.expiresAt, now, who⟩
  (entry, { s with
    entries := s.entries.filter (fun e => e.target ≠ req.target) ++ [entry]
    revision := s.revision + 1 })

def revokeByTarget (s : State) (target : IpNet) : Bool × State :=
  let entries := s.entries.filter fun e => e.target ≠ target
  if entries.length ≠ s.entries.length then
    (true, { s with entries := entries, revision := s.revision + 1 })
  else (false, { s with entries := entries })

/-- Remove what has expired; the targets removed. -/
def pruneExpired (s : State) (now : DateTime) : List IpNet × State :=
  let removed := (s.entries.filter fun e => e.isExpired now).map Entry.target
  let entries := s.entries.filter fun e => !e.isExpired now
  if removed.isEmpty then (removed, { s with entries := entries })
  else (removed, { s with entries := entries, revision := s.revision + 1 })

/-! ## Devices -/

/-- Register a device; one with the same id or the same key is replaced. -/
def addDevice (s : State) (device : Device) : State :=
  { s with
    devices := s.devices.filter (fun d => d.id ≠ device.id && d.pubkey ≠ device.pubkey) ++ [device] }

def getDeviceByPubkey (s : State) (pubkey : NoisePublicKey) : Option Device :=
  s.devices.find? fun d => d.pubkey = pubkey

def removeDevice (s : State) (id : DeviceId) : Bool × State :=
  let devices := s.devices.filter fun d => d.id ≠ id
  (decide (devices.length ≠ s.devices.length), { s with devices := devices })

/-- Note on the first device with the id that it has been seen. -/
def touch (id : DeviceId) (now : DateTime) : List Device → List Device
  | [] => []
  | d :: ds => if d.id = id then { d with lastSeen := some now } :: ds else d :: touch id now ds

def touchDevice (s : State) (id : DeviceId) (now : DateTime) : State :=
  { s with devices := touch id now s.devices }

/-! ## Settings -/

def rulesetFlags (s : State) : RulesetFlags :=
  ⟨s.sshAllowlistOnly, s.forwardAllowlistOnly, s.publicPorts⟩

def setSshAllowlistOnly (s : State) (on : Bool) : Bool × State :=
  (decide (s.sshAllowlistOnly ≠ on), { s with sshAllowlistOnly := on })

def setForwardAllowlistOnly (s : State) (on : Bool) : Bool × State :=
  (decide (s.forwardAllowlistOnly ≠ on), { s with forwardAllowlistOnly := on })

def setPublicPorts (s : State) (ports : List PublicPort) : State := { s with publicPorts := ports }

/-! ## Port forwards -/

def findForward (s : State) (id : ForwardId) : Option ForwardRule :=
  s.forwards.find? fun f => f.id = id

/-- Add a forward; one with the same interface and listen range is replaced. -/
def addForward (s : State) (req : AddForwardRequest) (who : DeviceId) (now : DateTime)
    (id : ForwardId) : ForwardRule × State :=
  let rule : ForwardRule := ⟨id, req.proto, req.iface, req.listen, req.destHost, req.destPort,
    req.source, req.note, now, who⟩
  (rule, { s with
    forwards := s.forwards.filter (fun f => !(f.iface = req.iface && f.listen = req.listen)) ++ [rule]
    forwardRevision := s.forwardRevision + 1 })

/-- The rule with everything but its identity as requested. -/
def updatedRule (rule : ForwardRule) (req : AddForwardRequest) : ForwardRule :=
  { rule with
    proto := req.proto, iface := req.iface, listen := req.listen, destHost := req.destHost
    destPort := req.destPort, source := req.source, note := req.note }

/-- Replace the first rule with the id. -/
def replaceForward (id : ForwardId) (rule : ForwardRule) : List ForwardRule → List ForwardRule
  | [] => []
  | f :: fs => if f.id = id then rule :: fs else f :: replaceForward id rule fs

/-- The map without one key. -/
def dropResolved (resolved : ForwardId → Option (BitVec 32)) (id : ForwardId) :
    ForwardId → Option (BitVec 32) :=
  fun i => if i = id then none else resolved i

/-- Change a forward in place. A new target makes the cached address worthless. -/
def updateForward (s : State) (id : ForwardId) (req : AddForwardRequest) :
    Option (ForwardRule × State) :=
  match s.findForward id with
  | none => none
  | some rule =>
    let resolved := if rule.destHost ≠ req.destHost then dropResolved s.resolved id else s.resolved
    some (updatedRule rule req, { s with
      forwards := replaceForward id (updatedRule rule req) s.forwards
      resolved := resolved
      forwardRevision := s.forwardRevision + 1 })

def removeForward (s : State) (id : ForwardId) : Bool × State :=
  let forwards := s.forwards.filter fun f => f.id ≠ id
  if forwards.length ≠ s.forwards.length then
    (true, { s with
      forwards := forwards
      resolved := dropResolved s.resolved id
      forwardRevision := s.forwardRevision + 1 })
  else (false, { s with forwards := forwards })

/-- The address the forward was last resolved to. -/
def resolvedIp (s : State) (id : ForwardId) : Option (BitVec 32) := s.resolved id

def setResolved (s : State) (map : ForwardId → Option (BitVec 32)) : State :=
  { s with resolved := map }

end State

/-! ## What the operations leave -/

section Spec

variable {s : State} {req : AllowRequest} {who : DeviceId} {now : DateTime} {id : EntryId}
variable {target : IpNet} {e : Entry} {on : Bool}

@[simp] theorem State.allow_fst_target : (s.allow req who now id).1.target = req.target := rfl

@[simp] theorem State.allow_rulesetFlags :
    (s.allow req who now id).2.rulesetFlags = s.rulesetFlags := rfl

theorem State.mem_allow : e ∈ (s.allow req who now id).2.entries ↔
    (e ∈ s.entries ∧ e.target ≠ req.target) ∨ e = (s.allow req who now id).1 := by
  simp [State.allow]

theorem State.revokeByTarget_entries :
    (s.revokeByTarget target).2.entries = s.entries.filter fun e => e.target ≠ target := by
  rw [State.revokeByTarget]
  split <;> rfl

theorem State.mem_revokeByTarget : e ∈ (s.revokeByTarget target).2.entries ↔
    e ∈ s.entries ∧ e.target ≠ target := by
  rw [State.revokeByTarget]
  split <;> simp

/-- Revoking a stored target succeeds. -/
theorem State.revokeByTarget_fst_of_mem (he : e ∈ s.entries) : (s.revokeByTarget e.target).1 = true := by
  have hlt : (s.entries.filter fun d => d.target ≠ e.target).length < s.entries.length := by
    rw [List.length_filter_lt_length_iff_exists]
    exact ⟨e, he, by simp⟩
  unfold State.revokeByTarget
  rw [if_pos (Nat.ne_of_lt hlt)]

/-- Revoking what is not there leaves the store as it is. -/
theorem State.revokeByTarget_false (h : (s.revokeByTarget target).1 = false) : (s.revokeByTarget target).2 = s := by
  unfold State.revokeByTarget at h ⊢
  dsimp only at h ⊢
  split
  · next hlen =>
    rw [if_pos hlen] at h
    cases h
  · next hlen => rw [List.filter_sublist.eq_of_length (not_not.mp hlen)]

@[simp] theorem State.revokeByTarget_rulesetFlags :
    (s.revokeByTarget target).2.rulesetFlags = s.rulesetFlags := by
  rw [State.revokeByTarget]
  split <;> rfl

theorem State.mem_pruneExpired : e ∈ (s.pruneExpired now).2.entries ↔
    e ∈ s.entries ∧ e.isExpired now = false := by
  simp only [State.pruneExpired]
  split <;> simp

@[simp] theorem State.pruneExpired_rulesetFlags :
    (s.pruneExpired now).2.rulesetFlags = s.rulesetFlags := by
  simp only [State.pruneExpired]
  split <;> rfl

@[simp] theorem State.setSshAllowlistOnly_rulesetFlags :
    (s.setSshAllowlistOnly on).2.rulesetFlags = s.rulesetFlags.withSsh on := rfl

@[simp] theorem State.setForwardAllowlistOnly_rulesetFlags :
    (s.setForwardAllowlistOnly on).2.rulesetFlags = s.rulesetFlags.withForward on := rfl

@[simp] theorem State.setPublicPorts_rulesetFlags {ports : List PublicPort} :
    (s.setPublicPorts ports).rulesetFlags = s.rulesetFlags.withPorts ports := rfl

/-! ### Devices -/

section Devices

variable {d device : Device} {ds : List Device} {pubkey : NoisePublicKey} {did : DeviceId}

/-- No two devices have the same id or the same key. -/
structure State.DevicesApart (ds : List Device) : Prop where
  ids : (ds.map Device.id).Nodup
  keys : (ds.map Device.pubkey).Nodup

theorem State.mem_addDevice : d ∈ (s.addDevice device).devices ↔
    (d ∈ s.devices ∧ d.id ≠ device.id ∧ d.pubkey ≠ device.pubkey) ∨ d = device := by
  simp [State.addDevice]

theorem State.mem_removeDevice : d ∈ (s.removeDevice did).2.devices ↔ d ∈ s.devices ∧ d.id ≠ did := by
  simp [State.removeDevice]

/-- Removing the id of a device succeeds. -/
theorem State.removeDevice_fst : (s.removeDevice did).1 = true ↔ ∃ d ∈ s.devices, d.id = did := by
  simp [State.removeDevice, List.length_filter_eq_length_iff]

/-- What removes nothing leaves the store as it is. -/
theorem State.removeDevice_false (h : (s.removeDevice did).1 = false) : (s.removeDevice did).2 = s := by
  have hlen := not_not.mp (of_decide_eq_false h)
  unfold State.removeDevice
  rw [List.filter_sublist.eq_of_length hlen]

theorem State.getDeviceByPubkey_eq_some (h : s.getDeviceByPubkey pubkey = some d) :
    d ∈ s.devices ∧ d.pubkey = pubkey := by
  unfold State.getDeviceByPubkey at h
  exact ⟨List.mem_of_find?_eq_some h, by simpa using List.find?_some h⟩

theorem State.getDeviceByPubkey_eq_none : s.getDeviceByPubkey pubkey = none ↔ ∀ d ∈ s.devices, d.pubkey ≠ pubkey := by
  simp [State.getDeviceByPubkey]

theorem State.touch_ids : (State.touch did now ds).map Device.id = ds.map Device.id := by
  induction ds with
  | nil => rfl
  | cons d ds ih =>
    unfold State.touch
    split
    · rfl
    · simp [ih]

theorem State.touch_keys : (State.touch did now ds).map Device.pubkey = ds.map Device.pubkey := by
  induction ds with
  | nil => rfl
  | cons d ds ih =>
    unfold State.touch
    split
    · rfl
    · simp [ih]

theorem State.DevicesApart.touch (h : State.DevicesApart ds) : State.DevicesApart (State.touch did now ds) where
  ids := by
    rw [State.touch_ids]
    exact h.ids
  keys := by
    rw [State.touch_keys]
    exact h.keys

theorem State.DevicesApart.remove (h : State.DevicesApart s.devices) :
    State.DevicesApart (s.removeDevice did).2.devices where
  ids := h.ids.sublist (List.filter_sublist.map _)
  keys := h.keys.sublist (List.filter_sublist.map _)

/-- Whatever shares `f` with the new device is left out. -/
theorem State.nodup_replace {α : Type} {f : Device → α} {p : Device → Bool} (h : (ds.map f).Nodup)
    (hp : ∀ d, p d = true → f d ≠ f device) : ((ds.filter p ++ [device]).map f).Nodup := by
  rw [List.map_append]
  refine List.nodup_append.mpr ⟨h.sublist (List.filter_sublist.map _), List.nodup_singleton _, ?_⟩
  intro i hi j hj heq
  obtain ⟨d, hd, rfl⟩ := List.mem_map.mp hi
  exact hp d (List.mem_filter.mp hd).2 (heq.trans (List.mem_singleton.mp hj))

theorem State.DevicesApart.add (h : State.DevicesApart s.devices) :
    State.DevicesApart (s.addDevice device).devices where
  ids := State.nodup_replace h.ids fun d hd => by simp_all
  keys := State.nodup_replace h.keys fun d hd => by simp_all

/-- A key names one device. -/
theorem State.DevicesApart.eq_of_key (h : State.DevicesApart ds) {d' : Device} (hd : d ∈ ds) (hd' : d' ∈ ds)
    (hkey : d.pubkey = d'.pubkey) : d = d' :=
  List.inj_on_of_nodup_map h.keys hd hd' hkey

end Devices

/-! ### Port forwards -/

variable {forward : ForwardRule} {fid : ForwardId} {freq : AddForwardRequest}

theorem State.mem_addForward (h : forward ∈ (s.addForward freq who now fid).2.forwards) :
    forward ∈ s.forwards ∨ forward = (s.addForward freq who now fid).1 := by
  rcases List.mem_append.mp h with hold | hnew
  · exact .inl (List.mem_filter.mp hold).1
  · exact .inr (List.mem_singleton.mp hnew)

/-- The first rule with the id makes room for the new one. -/
theorem State.self_mem_replaceForward {rules : List ForwardRule} {old rule : ForwardRule}
    (hfind : rules.find? (fun f => f.id = fid) = some old) : rule ∈ State.replaceForward fid rule rules := by
  induction rules with
  | nil => cases hfind
  | cons f fs ih =>
    unfold State.replaceForward
    by_cases hid : f.id = fid
    · rw [if_pos hid]
      exact List.mem_cons_self
    · rw [if_neg hid]
      rw [List.find?_cons_of_neg (by simpa using hid)] at hfind
      exact List.mem_cons_of_mem _ (ih hfind)

theorem State.mem_replaceForward {rules : List ForwardRule} {rule : ForwardRule}
    (h : forward ∈ State.replaceForward fid rule rules) : forward ∈ rules ∨ forward = rule := by
  induction rules with
  | nil => cases h
  | cons f fs ih =>
    unfold State.replaceForward at h
    split at h
    · rcases List.mem_cons.mp h with rfl | h
      · exact .inr rfl
      · exact .inl (List.mem_cons_of_mem f h)
    · rcases List.mem_cons.mp h with rfl | h
      · exact .inl (List.mem_cons_self ..)
      · exact (ih h).imp_left (List.mem_cons_of_mem f)

/-- What changing a forward does: one rule gets what was requested, and loses the
address kept for it if its target is another. -/
theorem State.updateForward_eq {s' : State} (h : (s.updateForward fid freq).map Prod.snd = some s') :
    ∃ old ∈ s.forwards, old.id = fid ∧
      (∀ f ∈ s'.forwards, f ∈ s.forwards ∨ f = State.updatedRule old freq) ∧
      s'.resolved = if old.destHost ≠ freq.destHost then State.dropResolved s.resolved fid else s.resolved := by
  unfold State.updateForward at h
  cases hfind : s.findForward fid with
  | none =>
    rw [hfind] at h
    cases h
  | some old =>
    rw [hfind] at h
    cases h
    unfold State.findForward at hfind
    exact ⟨old, List.mem_of_find?_eq_some hfind, by simpa using List.find?_some hfind,
      fun f hf => State.mem_replaceForward hf, rfl⟩

theorem State.dropResolved_eq_some {resolved : ForwardId → Option (BitVec 32)} {i : ForwardId} {ip : BitVec 32} :
    State.dropResolved resolved fid i = some ip ↔ i ≠ fid ∧ resolved i = some ip := by
  unfold State.dropResolved
  split
  · next heq => exact ⟨nofun, fun h => (h.1 heq).elim⟩
  · next hne => exact ⟨fun h => ⟨hne, h⟩, And.right⟩

theorem State.dropResolved_ne_none {resolved : ForwardId → Option (BitVec 32)} {i : ForwardId}
    (h : State.dropResolved resolved fid i ≠ none) : resolved i ≠ none := by
  unfold State.dropResolved at h
  split at h
  · exact (h rfl).elim
  · exact h

/-- No two forwards have the same id. -/
def State.IdsApart (rules : List ForwardRule) : Prop := (rules.map ForwardRule.id).Nodup

theorem State.IdsApart.add (h : State.IdsApart s.forwards) (hfresh : ∀ f ∈ s.forwards, f.id ≠ fid) :
    State.IdsApart (s.addForward freq who now fid).2.forwards := by
  have hkept : State.IdsApart (s.forwards.filter fun f => !(f.iface = freq.iface && f.listen = freq.listen)) :=
    h.sublist (List.filter_sublist.map _)
  unfold State.IdsApart State.addForward
  rw [List.map_append]
  refine List.nodup_append.mpr ⟨hkept, List.nodup_singleton _, ?_⟩
  intro i hi j hj heq
  obtain ⟨f, hf, rfl⟩ := List.mem_map.mp hi
  exact hfresh f (List.mem_filter.mp hf).1 (heq.trans (List.mem_singleton.mp hj))

theorem State.IdsApart.remove (h : State.IdsApart s.forwards) : State.IdsApart (s.removeForward fid).2.forwards := by
  have hkept : State.IdsApart (s.forwards.filter fun f => f.id ≠ fid) := h.sublist (List.filter_sublist.map _)
  unfold State.removeForward
  dsimp only
  split
  · exact hkept
  · exact hkept

theorem State.replaceForward_ids {rules : List ForwardRule} {rule : ForwardRule} (hid : rule.id = fid) :
    (State.replaceForward fid rule rules).map ForwardRule.id = rules.map ForwardRule.id := by
  induction rules with
  | nil => rfl
  | cons f fs ih =>
    unfold State.replaceForward
    split
    · next hf => rw [List.map_cons, List.map_cons, hid, hf]
    · rw [List.map_cons, List.map_cons, ih]

/-- Where ids are apart, a replacement changes the one rule with the id. -/
theorem State.IdsApart.mem_replaceForward {rules : List ForwardRule} {old rule : ForwardRule}
    (h : State.IdsApart rules) (hfind : rules.find? (fun f => f.id = fid) = some old) :
    forward ∈ State.replaceForward fid rule rules ↔ (forward ∈ rules ∧ forward.id ≠ fid) ∨ forward = rule := by
  induction rules with
  | nil => cases hfind
  | cons f fs ih =>
    unfold State.IdsApart at h
    rw [List.map_cons, List.nodup_cons] at h
    obtain ⟨hhead, htail⟩ := h
    unfold State.replaceForward
    by_cases hf : f.id = fid
    · rw [if_pos hf, List.mem_cons, or_comm]
      refine or_congr_left ⟨fun hmem => ⟨List.mem_cons_of_mem f hmem, fun hid => ?_⟩, fun hmem => ?_⟩
      -- a second rule with the id would be one of the rest
      · exact hhead (List.mem_map.mpr ⟨forward, hmem, hid.trans hf.symm⟩)
      · cases List.mem_cons.mp hmem.1 with
        | inl heq => exact (hmem.2 (heq ▸ hf)).elim
        | inr hrest => exact hrest
    · rw [List.find?_cons_of_neg (by simpa using hf)] at hfind
      rw [if_neg hf, List.mem_cons, ih htail hfind, List.mem_cons]
      constructor
      · intro hmem
        cases hmem with
        | inl heq => exact .inl ⟨.inl heq, heq ▸ hf⟩
        | inr hrest => exact hrest.imp_left fun hold => ⟨.inr hold.1, hold.2⟩
      · intro hmem
        cases hmem with
        | inl hold => exact hold.1.imp_right fun hrest => .inl ⟨hrest, hold.2⟩
        | inr heq => exact .inr (.inr heq)

theorem State.mem_removeForward : forward ∈ (s.removeForward fid).2.forwards ↔
    forward ∈ s.forwards ∧ forward.id ≠ fid := by
  rw [State.removeForward]
  split <;> simp

theorem State.removeForward_false (h : (s.removeForward fid).1 = false) : (s.removeForward fid).2 = s := by
  unfold State.removeForward at h ⊢
  dsimp only at h ⊢
  split
  · next hlen =>
    rw [if_pos hlen] at h
    cases h
  · next hlen => rw [List.filter_sublist.eq_of_length (not_not.mp hlen)]

/-- Removing a forward succeeds when there is one, and forgets its address. -/
theorem State.removeForward_true (h : (s.removeForward fid).1 = true) :
    (∃ f ∈ s.forwards, f.id = fid) ∧ (s.removeForward fid).2.resolved = State.dropResolved s.resolved fid := by
  simp only [State.removeForward] at h ⊢
  split at h
  · next hlen =>
    refine ⟨?_, by rw [if_pos hlen]⟩
    by_contra hnone
    have hall : ∀ f ∈ s.forwards, decide (f.id ≠ fid) = true :=
      fun f hf => decide_eq_true fun heq => hnone ⟨f, hf, heq⟩
    exact hlen (congrArg List.length (List.filter_eq_self.mpr hall))
  · cases h

end Spec

end Ipgate
