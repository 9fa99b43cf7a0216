-- SUMMARY: Whatever is requested in whatever order, no two items of a collection of the store share a key.
import Ipgate.Lib.Keyed
import Ipgate.Agent.Api.Authorize
import Ipgate.Agent.Api.Saves

/-!
# The collections of the store

Entries, devices, forwards and public ports are replaced, changed in place and removed by different
rules. `Does` says what each event does to the store; the rest goes by its cases.
-/

namespace Ipgate.Collections

open Net Act Saves

/-! ## Events -/

inductive Event where
  | request (q : Saves.Request)
  | tick (O : HashOrder) (now : DateTime)
  /-- The first part of a handshake: the key is looked up. -/
  | recognize (peer : NoisePublicKey) (now : DateTime)
  /-- The last part of a handshake, after another may have come in between. -/
  | register (peer : NoisePublicKey) (hello : HandshakeHello) (now : DateTime) (id : DeviceId)

/-- The id that the event draws for an entry. -/
def Event.entryId : Event → Option EntryId
  | .request (.allow _ _ _ id) => some id
  | _ => none

/-- The id that the event draws for a forward. -/
def Event.forwardId : Event → Option ForwardId
  | .request (.addForward _ _ _ _ _ id) => some id
  | _ => none

section System

variable {κ : Type} (B : NftBackend κ) (N : NatBackend κ) (cfg : AgentConfig)

def Event.after (e : Event) (w : World (Machine κ)) : World (Machine κ) :=
  match e with
  | .request q => q.after B N cfg w
  | .tick O now => (reconcileTick (machine B) cfg O now w).2
  | .recognize peer now => (Ipgate.recognize (machine B) peer now w).2
  | .register peer hello now id => (Ipgate.register (machine B) (newDevice peer hello now id) w).2

def step (w : World (Machine κ)) (e : Event) : Option (World (Machine κ)) := some (e.after B N cfg w)

end System

/-! ## What an event does -/

structure Items where
  entries : List Entry
  devices : List Device
  forwards : List ForwardRule
  publicPorts : List PublicPort

def items (s : State) : Items := ⟨s.entries, s.devices, s.forwards, s.publicPorts⟩

/-- The operation of the store that an event comes to. -/
inductive Does (s : State) : Event → State → Prop where
  | nothing {e : Event} : Does s e s
  | allow {who : DeviceId} {req : AllowRequest} {now : DateTime} {id : EntryId} :
      Does s (.request (.allow who req now id)) (s.allow req who now id).2
  | revoke {req : RevokeRequest} {target : IpNet} (h : revokeTarget s req = some target) :
      Does s (.request (.revoke req)) (s.revokeByTarget target).2
  | addForward {a : DnatAdapter} {reads : ForwardReads} {who : DeviceId} {req : AddForwardRequest} {now : DateTime}
      {id : ForwardId} : Does s (.request (.addForward a reads who req now id)) (s.addForward req who now id).2
  | updateForward {a : DnatAdapter} {reads : ForwardReads} {id : ForwardId} {req : AddForwardRequest}
      {rule : ForwardRule} {s' : State} (h : s.updateForward id req = some (rule, s')) :
      Does s (.request (.updateForward a reads id req)) s'
  | removeForward {env : ForwardRule → HostEnv} {id : ForwardId} :
      Does s (.request (.removeForward env id)) (s.removeForward id).2
  | notePort {req : PublicPortRequest} (h : s.publicPorts.any (isPort req.proto req.ports) = true) :
      Does s (.request (.addPublicPort req))
        (s.setPublicPorts (setNote req.proto req.ports (Text.trim req.note) s.publicPorts))
  | addPort {req : PublicPortRequest} (hpos : req.ports.start ≠ 0) (hvalid : req.ports.isValid = true)
      (h : s.publicPorts.any (isPort req.proto req.ports) = false) :
      Does s (.request (.addPublicPort req))
        (s.setPublicPorts (s.publicPorts ++ [⟨req.proto, req.ports, Text.trim req.note, false⟩]))
  | removePort {proto : ForwardProto} {range : PortRange} :
      Does s (.request (.removePublicPort proto range))
        (s.setPublicPorts (s.publicPorts.filter fun p => !isPort proto range p))
  | revokeDevice {id : DeviceId} : Does s (.request (.revokeDevice id)) (s.removeDevice id).2
  | prune {O : HashOrder} {now : DateTime} : Does s (.tick O now) (s.pruneExpired now).2
  | touch {peer : NoisePublicKey} {now : DateTime} {d : Device} (h : s.getDeviceByPubkey peer = some d) :
      Does s (.recognize peer now) (s.touchDevice d.id now)
  | register {peer : NoisePublicKey} {hello : HandshakeHello} {now : DateTime} {id : DeviceId} :
      Does s (.register peer hello now id) (s.addDevice (newDevice peer hello now id))

section After

variable {κ : Type} {B : NftBackend κ} {N : NatBackend κ} {cfg : AgentConfig} {w : World (Machine κ)}

/-- A request leaves what it comes to save, or what was there. -/
theorem items_of_outcome {α : Type} {r : Except ApiError α} {w' : World (Machine κ)} {o : Option State}
    (h : Outcome w o r w') : items w'.store = items (o.getD w.store) := by
  have hview {s s' : State} (heq : view s = view s') : items s = items s' := by
    simp only [view, View.mk.injEq, State.rulesetFlags, RulesetFlags.mk.injEq] at heq
    unfold items
    rw [heq.1, heq.2.1, heq.2.2.1, heq.2.2.2.2.2]
  cases o with
  | none => exact hview h.store
  | some s =>
    unfold Outcome Saved at h
    dsimp only at h
    split at h
    · rw [h.2.1]
      rfl
    · exact hview h.2.1

/-- What a request comes to save is what one of the operations makes of the store. -/
theorem does_toStore {q : Saves.Request} {s : State} (h : q.toStore B cfg w = some s) :
    ∃ s', Does w.store (.request q) s' ∧ items s = items s' := by
  unfold Request.toStore at h
  cases q with
  | allow who req now id =>
    cases h
    exact ⟨_, .allow, rfl⟩
  | revoke req =>
    obtain ⟨target, htarget, h⟩ := Option.bind_eq_some_iff.mp h
    split at h
    · cases h
      exact ⟨_, .revoke htarget, rfl⟩
    · cases h
  | addForward a reads who req now id =>
    dsimp only at h
    split at h
    · cases h
      exact ⟨_, .addForward, rfl⟩
    · cases h
  | updateForward a reads id req =>
    dsimp only at h
    split at h
    · obtain ⟨⟨rule, s'⟩, hupdate, rfl⟩ := Option.map_eq_some_iff.mp h
      exact ⟨_, .updateForward hupdate, rfl⟩
    · cases h
  | removeForward env id =>
    dsimp only at h
    split at h
    · cases h
      exact ⟨_, .removeForward, rfl⟩
    · cases h
  -- The flags are no collection.
  | setSshExposure on now =>
    dsimp only at h
    split at h
    · cases h
    · split at h
      · cases h
      · cases h
      · cases h
        exact ⟨_, .nothing, rfl⟩
  | setForwardExposure on =>
    dsimp only at h
    split at h
    · cases h
    · cases h
    · cases h
      exact ⟨_, .nothing, rfl⟩
  | addPublicPort req =>
    dsimp only at h
    split at h
    · cases h
    · next hrange =>
      obtain ⟨hpos, hvalid⟩ := not_or.mp hrange
      split at h
      · next hany =>
        cases h
        exact ⟨_, .notePort hany, rfl⟩
      · next hnone =>
        split at h
        · cases h
        · obtain ⟨_, -, rfl⟩ := Option.map_eq_some_iff.mp h
          exact ⟨_, .addPort hpos (Bool.not_eq_false _ ▸ hvalid) (Bool.eq_false_iff.mpr hnone), rfl⟩
  | removePublicPort proto range =>
    dsimp only at h
    split at h
    · cases h
    · obtain ⟨_, -, rfl⟩ := Option.map_eq_some_iff.mp h
      exact ⟨_, .removePort, rfl⟩
  | revokeDevice id =>
    dsimp only at h
    split at h
    · cases h
      exact ⟨_, .revokeDevice, rfl⟩
    · cases h

theorem does_request (q : Saves.Request) :
    ∃ s', Does w.store (.request q) s' ∧ items (q.after B N cfg w).store = items s' := by
  have hitems := items_of_outcome (outcome_run B N cfg w q)
  cases hstore : q.toStore B cfg w with
  | none =>
    rw [hstore] at hitems
    exact ⟨w.store, .nothing, hitems⟩
  | some s =>
    rw [hstore] at hitems
    obtain ⟨s', hdoes, hs'⟩ := does_toStore hstore
    exact ⟨s', hdoes, hitems.trans hs'⟩

/-- The store after an event is what one of the operations has made of it. -/
theorem does_after (e : Event) (w : World (Machine κ)) :
    ∃ s', Does w.store e s' ∧ items (e.after B N cfg w).store = items s' := by
  cases e with
  | request q => exact does_request q
  | tick O now => exact ⟨_, .prune, congrArg items reconcileTick_store⟩
  | recognize peer now =>
    have h : wp (Ipgate.recognize (machine B) peer now) _ w := wp_recognize
    unfold wp at h
    cases hfind : w.store.getDeviceByPubkey peer with
    | none =>
      rw [hfind] at h
      exact ⟨_, .nothing, congrArg (fun w => items (World.store w)) h.2⟩
    | some d =>
      rw [hfind] at h
      exact ⟨_, .touch hfind, congrArg items h.2⟩
  | register peer hello now id =>
    have h : wp (Ipgate.register (machine B) (newDevice peer hello now id)) _ w := wp_register
    exact ⟨_, .register, congrArg items h.1⟩

end After

/-! ## Keys -/

def portKey (p : PublicPort) : ForwardProto × PortRange := (p.proto, p.ports)

/-- No two items of a collection have a key in common, and the stored ports are those of clients. -/
structure Items.Apart (i : Items) : Prop where
  entryIds : Keyed.Apart Entry.id i.entries
  targets : Keyed.Apart Entry.target i.entries
  deviceIds : Keyed.Apart Device.id i.devices
  deviceKeys : Keyed.Apart Device.pubkey i.devices
  forwardIds : Keyed.Apart ForwardRule.id i.forwards
  ports : Keyed.Apart portKey i.publicPorts
  portsInRange : ∀ p ∈ i.publicPorts, 1 ≤ p.ports.start ∧ p.ports.start ≤ p.ports.stop ∧ p.fromConfig = false

section Operations

variable {s s' : State} {e : Event} {target : IpNet} {now : DateTime} {fid : ForwardId} {did : DeviceId}
variable {req : AddForwardRequest} {rule : ForwardRule} {proto : ForwardProto} {range : PortRange} {note : String}

theorem items_revoke :
    items (s.revokeByTarget target).2 = { items s with entries := s.entries.filter fun e => e.target ≠ target } := by
  unfold State.revokeByTarget
  dsimp only
  split
  · rfl
  · rfl

theorem items_prune :
    items (s.pruneExpired now).2 = { items s with entries := s.entries.filter fun e => !e.isExpired now } := by
  unfold State.pruneExpired
  dsimp only
  split
  · rfl
  · rfl

theorem items_removeForward :
    items (s.removeForward fid).2 = { items s with forwards := s.forwards.filter fun f => f.id ≠ fid } := by
  unfold State.removeForward
  dsimp only
  split
  · rfl
  · rfl

theorem replaceForward_eq (rules : List ForwardRule) :
    State.replaceForward fid rule rules = Keyed.modifyFirst ForwardRule.id fid (fun _ => rule) rules := by
  induction rules with
  | nil => rfl
  | cons f fs ih =>
    unfold State.replaceForward Keyed.modifyFirst
    rw [ih]

theorem items_updateForward (h : s.updateForward fid req = some (rule, s')) :
    ∃ old ∈ s.forwards, old.id = fid ∧ rule = State.updatedRule old req ∧
      items s' = { items s with forwards := Keyed.modifyFirst ForwardRule.id fid (fun _ => rule) s.forwards } := by
  unfold State.updateForward at h
  cases hfind : s.findForward fid with
  | none =>
    rw [hfind] at h
    cases h
  | some old =>
    rw [hfind] at h
    cases h
    unfold State.findForward at hfind
    refine ⟨old, List.mem_of_find?_eq_some hfind, by simpa using List.find?_some hfind, rfl, ?_⟩
    rw [← replaceForward_eq]
    rfl

theorem touch_eq (ds : List Device) :
    State.touch did now ds = Keyed.modifyFirst Device.id did (fun d => { d with lastSeen := some now }) ds := by
  induction ds with
  | nil => rfl
  | cons d ds ih =>
    unfold State.touch Keyed.modifyFirst
    rw [ih]

theorem isPort_eq (p : PublicPort) : isPort proto range p = decide (portKey p = (proto, range)) := by
  unfold isPort portKey
  simp

theorem setNote_eq (ports : List PublicPort) : setNote proto range note ports =
    Keyed.modifyFirst portKey (proto, range) (fun p => { p with note := note }) ports := by
  induction ports with
  | nil => rfl
  | cons p ps ih =>
    unfold setNote Keyed.modifyFirst
    rw [ih, isPort_eq]
    simp only [decide_eq_true_eq]

/-- No operation makes two items share a key, if the ids it draws are new. -/
theorem apart_does (h : Does s e s') (hs : (items s).Apart)
    (hentry : ∀ id, e.entryId = some id → ∀ x ∈ s.entries, x.id ≠ id)
    (hforward : ∀ id, e.forwardId = some id → ∀ f ∈ s.forwards, f.id ≠ id) : (items s').Apart := by
  cases h with
  | nothing => exact hs
  | allow =>
    -- An entry for the same target goes before the new one comes.
    have hnew := hentry _ rfl
    exact { hs with
      entryIds := (hs.entryIds.filter _).concat fun x hx => hnew x (List.mem_filter.mp hx).1
      targets := (hs.targets.filter _).concat fun x hx => by simpa using (List.mem_filter.mp hx).2 }
  | revoke =>
    rw [items_revoke]
    exact { hs with entryIds := hs.entryIds.filter _, targets := hs.targets.filter _ }
  | addForward =>
    have hnew := hforward _ rfl
    exact { hs with forwardIds := (hs.forwardIds.filter _).concat fun f hf => hnew f (List.mem_filter.mp hf).1 }
  | updateForward h =>
    obtain ⟨old, -, hid, hrule, hitems⟩ := items_updateForward h
    rw [hitems]
    exact { hs with forwardIds := hs.forwardIds.modified fun f hf => by rw [hrule, hf]; exact hid }
  | removeForward =>
    rw [items_removeForward]
    exact { hs with forwardIds := hs.forwardIds.filter _ }
  | notePort h =>
    rw [setNote_eq]
    refine { hs with ports := hs.ports.modified fun _ _ => rfl, portsInRange := fun p hp => ?_ }
    obtain hold | ⟨q, hq, -, rfl⟩ := Keyed.mem_modifyFirst hp
    · exact hs.portsInRange p hold
    · exact hs.portsInRange q hq
  | @addPort req hpos hvalid h =>
    refine { hs with ports := hs.ports.concat fun p hp hkey => ?_, portsInRange := fun p hp => ?_ }
    · have hnone := List.any_eq_false.mp h p hp
      rw [isPort_eq] at hnone
      exact hnone (decide_eq_true hkey)
    · cases List.mem_append.mp hp with
      | inl hold => exact hs.portsInRange p hold
      | inr hnew =>
        rw [List.mem_singleton.mp hnew]
        have hstart : req.ports.start.toNat ≠ 0 := fun hzero => hpos (UInt16.toNat_inj.mp hzero)
        exact ⟨UInt16.le_iff_toNat_le.mpr (Nat.one_le_iff_ne_zero.mpr hstart), of_decide_eq_true hvalid, rfl⟩
  | removePort =>
    exact { hs with
      ports := hs.ports.filter _
      portsInRange := fun p hp => hs.portsInRange p (List.mem_filter.mp hp).1 }
  | revokeDevice => exact { hs with deviceIds := hs.deviceIds.filter _, deviceKeys := hs.deviceKeys.filter _ }
  | prune =>
    rw [items_prune]
    exact { hs with entryIds := hs.entryIds.filter _, targets := hs.targets.filter _ }
  | touch h =>
    unfold State.touchDevice
    rw [touch_eq]
    exact { hs with
      deviceIds := hs.deviceIds.modified fun _ _ => rfl
      deviceKeys := hs.deviceKeys.modified fun _ _ => rfl }
  | register =>
    exact { hs with
      deviceIds := (hs.deviceIds.filter _).concat fun d hd => by simp_all
      deviceKeys := (hs.deviceKeys.filter _).concat fun d hd => by simp_all }

/-! ## What an event leaves alone -/

/-- The entries that an event is about. -/
def Event.namesEntry : Event → Entry → Bool
  | .request (.allow _ req _ _), x => x.target = req.target
  | .request (.revoke (.target t)), x => x.target = t
  | .request (.revoke (.id id)), x => x.id = id
  | .tick _ now, x => x.isExpired now
  | _, _ => false

def Event.namesDevice : Event → Device → Bool
  | .request (.revokeDevice id), d => d.id = id
  | .recognize peer _, d => d.pubkey = peer
  | .register peer _ _ id, d => d.id = id || d.pubkey = peer
  | _, _ => false

def Event.namesForward : Event → ForwardRule → Bool
  | .request (.addForward _ _ _ req _ _), f => f.iface = req.iface && f.listen = req.listen
  | .request (.updateForward _ _ id _), f => f.id = id
  | .request (.removeForward _ id), f => f.id = id
  | _, _ => false

def Event.namesPort : Event → PublicPort → Bool
  | .request (.addPublicPort req), p => isPort req.proto req.ports p
  | .request (.removePublicPort proto range), p => isPort proto range p
  | _, _ => false

/-- All other items are there as they were, in the same order. -/
structure Leaves (e : Event) (i i' : Items) : Prop where
  entries : (i'.entries.filter fun x => !e.namesEntry x) = i.entries.filter fun x => !e.namesEntry x
  devices : (i'.devices.filter fun d => !e.namesDevice d) = i.devices.filter fun d => !e.namesDevice d
  forwards : (i'.forwards.filter fun f => !e.namesForward f) = i.forwards.filter fun f => !e.namesForward f
  publicPorts : (i'.publicPorts.filter fun p => !e.namesPort p) = i.publicPorts.filter fun p => !e.namesPort p

theorem leaves_self (e : Event) (i : Items) : Leaves e i i := ⟨rfl, rfl, rfl, rfl⟩

/-- The target of an entry that is named by its id is its own only. -/
theorem names_of_revokeTarget {req : RevokeRequest} (hs : (items s).Apart) (h : revokeTarget s req = some target)
    {x : Entry} (hx : x ∈ s.entries) (htarget : x.target = target) : (Event.request (.revoke req)).namesEntry x = true := by
  cases req with
  | target t =>
    cases h
    exact decide_eq_true htarget
  | id id =>
    obtain ⟨y, hfind, hy⟩ := Option.map_eq_some_iff.mp h
    unfold State.findById at hfind
    have hid : y.id = id := by simpa using List.find?_some hfind
    have hsame : x = y := hs.targets.eq hx (List.mem_of_find?_eq_some hfind) (htarget.trans hy.symm)
    exact decide_eq_true (hsame ▸ hid)

theorem leaves_does (h : Does s e s') (hs : (items s).Apart) : Leaves e (items s) (items s') := by
  cases h with
  | nothing => exact leaves_self e _
  | allow =>
    refine { leaves_self _ (items s) with entries := ?_ }
    refine (Keyed.filter_concat ?_).trans (Keyed.filter_filter_of_imp fun x _ hx => ?_)
    · simp [Event.namesEntry]
    · simpa [Event.namesEntry] using hx
  | revoke h =>
    rw [items_revoke]
    refine { leaves_self _ (items s) with entries := Keyed.filter_filter_of_imp fun x hx hother => ?_ }
    -- An entry is named by its id or by its target, and these tell the same entry.
    refine decide_eq_true fun htarget => ?_
    rw [names_of_revokeTarget hs h hx htarget] at hother
    cases hother
  | addForward =>
    refine { leaves_self _ (items s) with forwards := ?_ }
    refine (Keyed.filter_concat ?_).trans (Keyed.filter_filter_of_imp fun f _ hf => ?_)
    · simp [Event.namesForward]
    · exact hf
  | @updateForward a reads id req rule s' h =>
    obtain ⟨old, -, hid, hrule, hitems⟩ := items_updateForward h
    rw [hitems]
    refine { leaves_self _ (items s) with forwards := Keyed.filter_modifyFirst fun f _ hf => ⟨?_, ?_⟩ }
    · simp [Event.namesForward, hf]
    · have hsame : rule.id = id := by
        rw [hrule]
        exact hid
      simp [Event.namesForward, hsame]
  | removeForward =>
    rw [items_removeForward]
    refine { leaves_self _ (items s) with forwards := Keyed.filter_filter_of_imp fun f _ hf => ?_ }
    simpa [Event.namesForward] using hf
  | notePort h =>
    rw [setNote_eq]
    refine { leaves_self _ (items s) with publicPorts := Keyed.filter_modifyFirst fun p _ hp => ⟨?_, ?_⟩ }
    · simp [Event.namesPort, isPort_eq, hp]
    · rw [Bool.not_eq_false']
      exact (isPort_eq _).trans (decide_eq_true hp)
  | addPort hpos hvalid h =>
    refine { leaves_self _ (items s) with publicPorts := Keyed.filter_concat ?_ }
    simp [Event.namesPort, isPort]
  | removePort =>
    exact { leaves_self _ (items s) with publicPorts := Keyed.filter_filter_of_imp fun p _ hp => hp }
  | revokeDevice =>
    refine { leaves_self _ (items s) with devices := Keyed.filter_filter_of_imp fun d _ hd => ?_ }
    simpa [Event.namesDevice] using hd
  | prune =>
    rw [items_prune]
    exact { leaves_self _ (items s) with entries := Keyed.filter_filter_of_imp fun x _ hx => hx }
  | touch h =>
    obtain ⟨hd, hkey⟩ := State.getDeviceByPubkey_eq_some h
    unfold State.touchDevice
    rw [touch_eq]
    refine { leaves_self _ (items s) with devices := Keyed.filter_modifyFirst fun x hx hid => ?_ }
    -- The device with the key is the only one with its id.
    have hsame : x = _ := hs.deviceIds.eq hx hd hid
    have hx' : x.pubkey = _ := hsame ▸ hkey
    exact ⟨by simp [Event.namesDevice, hx'], by simp [Event.namesDevice, hx']⟩
  | register =>
    refine { leaves_self _ (items s) with devices := ?_ }
    refine (Keyed.filter_concat ?_).trans (Keyed.filter_filter_of_imp fun d _ hd => ?_)
    · simp [Event.namesDevice, newDevice]
    · simpa [Event.namesDevice, newDevice] using hd

/-! ## What a key names -/

/-- Looking up, removing and changing by a key concerns the one item that has it. -/
structure OneEach (s : State) : Prop where
  findEntry : ∀ x ∈ s.entries, s.findById x.id = some x
  revokeId : ∀ x ∈ s.entries, revokeTarget s (.id x.id) = some x.target
  revoke : ∀ x ∈ s.entries, (s.revokeByTarget x.target).1 = true ∧
    (s.revokeByTarget x.target).2.entries = s.entries.erase x
  findDevice : ∀ d ∈ s.devices, s.getDeviceByPubkey d.pubkey = some d
  removeDevice : ∀ d ∈ s.devices, (s.removeDevice d.id).1 = true ∧ (s.removeDevice d.id).2.devices = s.devices.erase d
  findForward : ∀ f ∈ s.forwards, s.findForward f.id = some f
  removeForward : ∀ f ∈ s.forwards, (s.removeForward f.id).1 = true ∧
    (s.removeForward f.id).2.forwards = s.forwards.erase f
  updateForward : ∀ f ∈ s.forwards, ∀ req, ∃ s', s.updateForward f.id req = some (State.updatedRule f req, s') ∧
    s'.forwards = s.forwards.map fun g => if g = f then State.updatedRule f req else g
  removePort : ∀ p ∈ s.publicPorts, (s.publicPorts.filter fun q => !isPort p.proto p.ports q) = s.publicPorts.erase p
  notePort : ∀ p ∈ s.publicPorts, ∀ note, setNote p.proto p.ports note s.publicPorts =
    s.publicPorts.map fun q => if q = p then { q with note := note } else q

theorem oneEach_of_apart (hs : (items s).Apart) : OneEach s where
  findEntry x hx := hs.entryIds.find hx fun _ => rfl
  revokeId x hx := by
    have hfind : s.findById x.id = some x := hs.entryIds.find hx fun _ => rfl
    exact congrArg (Option.map Entry.target) hfind
  revoke x hx := by
    refine ⟨State.revokeByTarget_fst_of_mem hx, ?_⟩
    rw [State.revokeByTarget_entries]
    exact hs.targets.filter_eq_erase hx fun _ => rfl
  findDevice d hd := hs.deviceKeys.find hd fun _ => rfl
  removeDevice d hd := ⟨State.removeDevice_fst.mpr ⟨d, hd, rfl⟩, hs.deviceIds.filter_eq_erase hd fun _ => rfl⟩
  findForward f hf := hs.forwardIds.find hf fun _ => rfl
  removeForward f hf := by
    have herase : (s.forwards.filter fun g => g.id ≠ f.id) = s.forwards.erase f :=
      hs.forwardIds.filter_eq_erase hf fun _ => rfl
    have hpos : 0 < s.forwards.length := List.length_pos_of_mem hf
    -- `removeForward` tells by the length whether it has found one.
    have hlen : (s.forwards.filter fun g => g.id ≠ f.id).length ≠ s.forwards.length := by
      rw [herase, List.length_erase_of_mem hf]
      omega
    unfold State.removeForward
    dsimp only
    rw [if_pos hlen]
    exact ⟨rfl, herase⟩
  updateForward f hf req := by
    have hfind : s.findForward f.id = some f := hs.forwardIds.find hf fun _ => rfl
    unfold State.updateForward
    rw [hfind]
    refine ⟨_, rfl, ?_⟩
    dsimp only
    rw [replaceForward_eq]
    exact hs.forwardIds.modifyFirst_eq_map hf
  removePort p hp := hs.ports.filter_eq_erase hp fun q => by
    rw [isPort_eq, ← decide_not]
    rfl
  notePort p hp note := by
    rw [setNote_eq]
    exact hs.ports.modifyFirst_eq_map hp

/-! ## Runs -/

/-- An id that is stored was stored before, or has been drawn. -/
theorem ids_does (h : Does s e s') :
    (∀ x ∈ (items s').entries, (∃ y ∈ s.entries, y.id = x.id) ∨ e.entryId = some x.id) ∧
      ∀ f ∈ (items s').forwards, (∃ g ∈ s.forwards, g.id = f.id) ∨ e.forwardId = some f.id := by
  -- An operation that only takes items away draws no id.
  have hentries {l : List Entry} (hl : ∀ x ∈ l, x ∈ s.entries) :
      ∀ x ∈ l, (∃ y ∈ s.entries, y.id = x.id) ∨ e.entryId = some x.id := fun x hx => .inl ⟨x, hl x hx, rfl⟩
  have hforwards {l : List ForwardRule} (hl : ∀ f ∈ l, f ∈ s.forwards) :
      ∀ f ∈ l, (∃ g ∈ s.forwards, g.id = f.id) ∨ e.forwardId = some f.id := fun f hf => .inl ⟨f, hl f hf, rfl⟩
  have hsame : (∀ x ∈ s.entries, x ∈ s.entries) ∧ ∀ f ∈ s.forwards, f ∈ s.forwards := ⟨fun _ => id, fun _ => id⟩
  cases h with
  | nothing => exact ⟨hentries hsame.1, hforwards hsame.2⟩
  | allow =>
    refine ⟨fun x hx => ?_, hforwards hsame.2⟩
    cases List.mem_append.mp hx with
    | inl hold => exact .inl ⟨x, (List.mem_filter.mp hold).1, rfl⟩
    | inr hnew =>
      rw [List.mem_singleton.mp hnew]
      exact .inr rfl
  | revoke h =>
    rw [items_revoke]
    exact ⟨hentries fun x hx => (List.mem_filter.mp hx).1, hforwards hsame.2⟩
  | addForward =>
    refine ⟨hentries hsame.1, fun f hf => ?_⟩
    cases List.mem_append.mp hf with
    | inl hold => exact .inl ⟨f, (List.mem_filter.mp hold).1, rfl⟩
    | inr hnew =>
      rw [List.mem_singleton.mp hnew]
      exact .inr rfl
  | updateForward h =>
    obtain ⟨old, hold, -, hrule, hitems⟩ := items_updateForward h
    rw [hitems]
    refine ⟨hentries hsame.1, fun f hf => ?_⟩
    obtain hkept | ⟨g, -, -, rfl⟩ := Keyed.mem_modifyFirst hf
    · exact .inl ⟨f, hkept, rfl⟩
    · exact .inl ⟨old, hold, by rw [hrule]; rfl⟩
  | removeForward =>
    rw [items_removeForward]
    exact ⟨hentries hsame.1, hforwards fun f hf => (List.mem_filter.mp hf).1⟩
  | notePort h => exact ⟨hentries hsame.1, hforwards hsame.2⟩
  | addPort hpos hvalid h => exact ⟨hentries hsame.1, hforwards hsame.2⟩
  | removePort => exact ⟨hentries hsame.1, hforwards hsame.2⟩
  | revokeDevice => exact ⟨hentries hsame.1, hforwards hsame.2⟩
  | prune =>
    rw [items_prune]
    exact ⟨hentries fun x hx => (List.mem_filter.mp hx).1, hforwards hsame.2⟩
  | touch h => exact ⟨hentries hsame.1, hforwards hsame.2⟩
  | register => exact ⟨hentries hsame.1, hforwards hsame.2⟩

end Operations

section Run

variable {κ : Type} {B : NftBackend κ} {N : NatBackend κ} {cfg : AgentConfig} {w₀ w w' : World (Machine κ)}
variable {e : Event} {es : List Event}

/-- Items are apart by their keys, and their ids have all been drawn by the events so far. -/
structure Drawn (es : List Event) (i : Items) : Prop where
  apart : i.Apart
  entries : ∀ x ∈ i.entries, x.id ∈ es.filterMap Event.entryId
  forwards : ∀ f ∈ i.forwards, f.id ∈ es.filterMap Event.forwardId

/-- What a further event draws is new. -/
theorem drawn_step (h : Drawn es (items w.store)) (hentries : ((es ++ [e]).filterMap Event.entryId).Nodup)
    (hforwards : ((es ++ [e]).filterMap Event.forwardId).Nodup) :
    Drawn (es ++ [e]) (items (e.after B N cfg w).store) := by
  obtain ⟨s', hdoes, hitems⟩ := @does_after κ B N cfg e w
  obtain ⟨hids, hids'⟩ := ids_does hdoes
  rw [List.filterMap_append] at hentries hforwards
  rw [hitems]
  constructor
  · refine apart_does hdoes h.apart (fun id hid x hx heq => ?_) fun id hid f hf heq => ?_
    · refine (List.nodup_append.mp hentries).2.2 x.id (h.entries x hx) id ?_ heq
      simp [hid]
    · refine (List.nodup_append.mp hforwards).2.2 f.id (h.forwards f hf) id ?_ heq
      simp [hid]
  · intro x hx
    rw [List.filterMap_append, List.mem_append]
    obtain ⟨y, hy, hyx⟩ | hnew := hids x hx
    · exact .inl (hyx ▸ h.entries y hy)
    · exact .inr (by simp [hnew])
  · intro f hf
    rw [List.filterMap_append, List.mem_append]
    obtain ⟨g, hg, hgf⟩ | hnew := hids' f hf
    · exact .inl (hgf ▸ h.forwards g hg)
    · exact .inr (by simp [hnew])

theorem drawn_run (hstart : w₀.store = .default) (hentries : (es.filterMap Event.entryId).Nodup)
    (hforwards : (es.filterMap Event.forwardId).Nodup) (hrun : Lts.run (step B N cfg) w₀ es = some w) :
    Drawn es (items w.store) := by
  have hempty : (items State.default).Apart := ⟨Keyed.apart_nil, Keyed.apart_nil, Keyed.apart_nil, Keyed.apart_nil,
    Keyed.apart_nil, Keyed.apart_nil, fun _ hp => absurd hp List.not_mem_nil⟩
  refine Lts.run_history (P := fun es w => (es.filterMap Event.entryId).Nodup → (es.filterMap Event.forwardId).Nodup →
    Drawn es (items w.store)) ?_ ?_ hrun hentries hforwards
  · intro _ _
    rw [hstart]
    exact ⟨hempty, fun _ hx => absurd hx List.not_mem_nil, fun _ hf => absurd hf List.not_mem_nil⟩
  · intro xs t e t' _ ih hstep hentries hforwards
    cases hstep
    refine drawn_step (ih ?_ ?_) hentries hforwards
    · rw [List.filterMap_append] at hentries
      exact (List.nodup_append.mp hentries).1
    · rw [List.filterMap_append] at hforwards
      exact (List.nodup_append.mp hforwards).1

/-- In every run from an empty store that draws no id twice, items stay apart by their keys, a key names one
item, and an event leaves what it does not name. -/
theorem collections_stay_keyed (hstart : w₀.store = .default) (hentries : (es.filterMap Event.entryId).Nodup)
    (hforwards : (es.filterMap Event.forwardId).Nodup) (hrun : Lts.run (step B N cfg) w₀ es = some w) :
    (items w.store).Apart ∧ OneEach w.store ∧ ∀ e, Leaves e (items w.store) (items (e.after B N cfg w).store) := by
  have hdrawn := drawn_run hstart hentries hforwards hrun
  refine ⟨hdrawn.apart, oneEach_of_apart hdrawn.apart, fun e => ?_⟩
  obtain ⟨s', hdoes, hitems⟩ := @does_after κ B N cfg e w
  rw [hitems]
  exact leaves_does hdoes hdrawn.apart

/-- An address is admitted twice, the second time with a note, and a port is made public. -/
def renewedEvents : List Event :=
  [.request allowHome, .request (.allow ⟨1⟩ ⟨home, "home", none⟩ 1 ⟨2⟩),
    .request (.addPublicPort ⟨.tcp, ⟨443, 443⟩, "web"⟩)]

theorem collections_stay_keyed_renewed : ∃ w, Lts.run (step targetSet noNat .default) (freshMachine []) renewedEvents =
    some w ∧ w.store.entries.length = 1 ∧ (items w.store).Apart := by
  obtain ⟨w, hw⟩ : ∃ w, Lts.run (step targetSet noNat .default) (freshMachine []) renewedEvents = some w :=
    Lts.exists_run _ _
  refine ⟨w, hw, ?_, (collections_stay_keyed rfl (by decide) (by decide) hw).1⟩
  cases hw
  rfl

end Run

end Ipgate.Collections
