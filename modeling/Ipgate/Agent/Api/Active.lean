-- SUMMARY: Forwards reported as active: when the NAT table has their rules, over any history of requests, ticks and restarts.
import Ipgate.Agent.Api.Table
import Ipgate.Agent.Api.Disk
import Ipgate.Agent.Nft.Nat
import Ipgate.Lib.Lts

/-!
# Active forwards

A forward is reported as active when the store has an address for it. The addresses are
written by a pass that the kernel has accepted, are kept when a later one fails, and are
saved with the rest of the store. A request that changes the ports of a forward keeps its
address, and a restart takes the addresses from the state file. So they say the truth as
long as every such change is followed by a pass that is accepted.
-/

namespace Ipgate.Active

open Net Act
open NftNat (Rule)

/-! ## What a report should mean -/

section Statement

variable {table : List ResolvedForward} {proto : ForwardProto} {listen destPort : PortRange} {ip : BitVec 32}

/-- For each protocol, the table has a rule that sends what arrives at the ports to the address. -/
def HasDnat (table : List ResolvedForward) (proto : ForwardProto) (listen destPort : PortRange) (ip : BitVec 32) : Prop :=
  ∀ l4 ∈ proto.l4Protos, ∃ iface,
    (⟨[.iifname iface, .dport l4 listen.start listen.stop], .dnat ip destPort.start destPort.stop⟩ : Rule) ∈
      (preroutingChain table).rules

/-- Every forward of the agent that is listed as active has its rules in the table, for its ports
as they are listed. -/
def Truthful {κ : Type} (w : World (Tabled κ)) : Prop :=
  ∀ encodeKey a reads, ∀ v ∈ (listForwards encodeKey a reads w.store).forwards,
    v.origin = .ipgate → v.active = true →
      ∃ ip, v.resolvedIp = some ip ∧ HasDnat w.host.table v.proto v.listen v.destPort ip

/-- Every rule of the store that has an address has its rules in the table. -/
def Tells (s : State) (table : List ResolvedForward) : Prop :=
  ∀ rule ∈ s.forwards, ∀ ip, s.resolvedIp rule.id = some ip → HasDnat table rule.proto rule.listen rule.destPort ip

theorem hasDnat_iff : HasDnat table proto listen destPort ip ↔
    ∀ l4 ∈ proto.l4Protos, ∃ f ∈ table, l4 ∈ f.proto.l4Protos ∧ f.listen = listen ∧ f.destPort = destPort ∧
      f.remoteIp = ip := by
  refine forall_congr' fun l4 => forall_congr' fun _ => ?_
  constructor
  · intro h
    obtain ⟨iface, hrule⟩ := h
    obtain ⟨f, hf, hmem⟩ := List.mem_flatMap.mp hrule
    obtain ⟨l4', hl4, heq⟩ := List.mem_map.mp hmem
    simp only [dnatRule, Rule.mk.injEq, List.cons.injEq, NftNat.Match.iifname.injEq, NftNat.Match.dport.injEq,
      NftNat.Action.dnat.injEq] at heq
    obtain ⟨⟨-, ⟨rfl, hstart, hstop⟩, -⟩, hip, hdstart, hdstop⟩ := heq
    refine ⟨f, hf, hl4, ?_, ?_, hip⟩
    · cases hlisten : f.listen with
      | mk start stop => simp_all
    · cases hdest : f.destPort with
      | mk start stop => simp_all
  · intro h
    obtain ⟨f, hf, hl4, rfl, rfl, rfl⟩ := h
    exact ⟨f.iface, List.mem_flatMap.mpr ⟨f, hf, List.mem_map.mpr ⟨l4, hl4, rfl⟩⟩⟩

instance : Decidable (HasDnat table proto listen destPort ip) := decidable_of_iff _ hasDnat_iff.symm

instance (s : State) : Decidable (Tells s table) :=
  -- only the address that is there is looked at, not all there are
  have (rule : ForwardRule) : Decidable (∀ ip, s.resolvedIp rule.id = some ip →
      HasDnat table rule.proto rule.listen rule.destPort ip) := Option.decidableForallMem (s.resolvedIp rule.id)
  inferInstanceAs (Decidable (∀ rule ∈ s.forwards, _))

/-- The rules of a resolved forward. -/
theorem hasDnat_of_mem {rf : ResolvedForward} (h : rf ∈ table) :
    HasDnat table rf.proto rf.listen rf.destPort rf.remoteIp :=
  hasDnat_iff.mpr fun _ hl4 => ⟨rf, h, hl4, rfl, rfl, rfl⟩

theorem not_hasDnat_nil : ¬HasDnat [] proto listen destPort ip := by
  rw [hasDnat_iff]
  intro h
  cases proto with
  | tcp => cases (h .tcp (List.mem_cons_self ..)).choose_spec.1
  | udp => cases (h .udp (List.mem_cons_self ..)).choose_spec.1
  | both => cases (h .tcp (List.mem_cons_self ..)).choose_spec.1

end Statement

/-! ## The daemon -/

/-- The agent with the machine under it, and what its resolve loop remembers. -/
structure Sys (τ κ : Type) where
  world : World (Tabled (Machine κ))
  lastHash : Option τ

inductive Event (κ : Type) where
  | add (a : DnatAdapter) (reads : ForwardReads) (who : DeviceId) (req : AddForwardRequest) (now : DateTime)
      (id : ForwardId)
  | update (a : DnatAdapter) (reads : ForwardReads) (id : ForwardId) (req : AddForwardRequest)
  | remove (env : ForwardRule → HostEnv) (id : ForwardId)
  /-- A round of the resolve loop. -/
  | tick (env : ForwardRule → HostEnv)
  /-- The daemon starts again, on the kernel that is there or, after a reboot, on another. -/
  | restart (booted : Option κ) (now : DateTime) (env : ForwardRule → HostEnv)

/-- Up to the first pass: forget what has expired, and rebuild the ruleset. -/
def prepare {κ : Type} (H : Host κ) (cfg : AgentConfig) (now : DateTime) : Act (World κ) String Unit := do
  let removed ← onStore fun s => s.pruneExpired now
  .onlyIf (!removed.isEmpty) (callSave H)
  let w ← .get
  let applied ← applyRuleset H (cfg.rulesetWith w.store.rulesetFlags) w.store.entries
  .modify fun w => { w with live := Live.record applied }

section System

variable {τ κ : Type} [DecidableEq τ]
variable (B : NftBackend κ) (N : NatBackend κ) (cfg : AgentConfig) (hash : List ResolvedForward → τ)

/-- The daemon has just loaded the state file. A reboot leaves no table. -/
def Sys.loaded (s : Sys τ κ) (booted : Option κ) : World (Tabled (Machine κ)) where
  store := s.world.host.host.disk.written
  live := ⟨false, false⟩
  host :=
    match booted with
    | some kernel => ⟨⟨kernel, s.world.host.host.disk⟩, []⟩
    | none => s.world.host
  accepted := s.world.accepted

/-- No rule, and no address, has the id. -/
def Sys.Fresh (s : Sys τ κ) (id : ForwardId) : Prop :=
  (∀ f ∈ s.world.store.forwards, f.id ≠ id) ∧ s.world.store.resolvedIp id = none

instance (s : Sys τ κ) (id : ForwardId) : Decidable (s.Fresh id) := inferInstanceAs (Decidable (_ ∧ _))

/-- One event, with the calls that it makes. A start that does not come to its pass ends the
daemon: it answers no requests. -/
def step (s : Sys τ κ) : Event κ → Option (Sys τ κ)
  | .add a reads who req now id =>
    if s.Fresh id then
      some { s with world :=
        (addForward (tabled (machine B)) (tabledNat (machineNat N)) a reads who req now id s.world).2 }
    else none
  | .update a reads id req =>
    some { s with world := (updateForward (tabled (machine B)) (tabledNat (machineNat N)) a reads id req s.world).2 }
  | .remove env id =>
    some { s with world := (removeForward (tabled (machine B)) (tabledNat (machineNat N)) env id s.world).2 }
  | .tick env =>
    let r := resolveTick (tabled (machine B)) (tabledNat (machineNat N)) hash env s.lastHash s.world
    some ⟨r.2, r.1.toOption.getD s.lastHash⟩
  | .restart booted now env =>
    match prepare (tabled (machine B)) cfg now (s.loaded booted) with
    | (.ok (), w) => some ⟨(applyNow (tabled (machine B)) (tabledNat (machineNat N)) env w).2, none⟩
    | (.error _, _) => none

/-- A fresh installation: no rules in memory, in the file and in the kernel. -/
def Sys.start (kernel : κ) (answers : List (Except String Unit)) : Sys τ κ where
  world := ⟨.default, ⟨false, false⟩, ⟨⟨kernel, ⟨.default, answers⟩⟩, []⟩, cfg.rulesetWith State.default.rulesetFlags⟩
  lastHash := none

/-! ## Where memory and table part -/

/-- The answer to saving the store and then to installing its rules. -/
def landAnswer {μ : Type} (H : Host μ) (M : NatBackend μ) (env : ForwardRule → HostEnv) (w : World (Tabled μ)) :
    Except String Unit :=
  match H.save w.store w.host.host with
  | (.ok (), k) => (installAnswer M (resolveAll env w.store).resolved k).1
  | (.error e, _) => .error e

/-- A forward that keeps its target and its address gets ports that the table does not have for
it, and they are not saved or not installed. -/
def UpdateParts {μ : Type} (H : Host μ) (M : NatBackend μ) (a : DnatAdapter) (reads : ForwardReads) (id : ForwardId)
    (req : AddForwardRequest) (w : World (Tabled μ)) : Prop :=
  (checkForwardRequest a reads.dnatConf reads.dnatIface req).isOk = true ∧
  Forwarding.overlapsOther w.store reads.otherIface id req = false ∧
  (∃ old, w.store.findForward id = some old ∧ old.destHost = req.destHost) ∧
  (∃ ip, w.store.resolvedIp id = some ip ∧ ¬HasDnat w.host.table req.proto req.listen req.destPort ip) ∧
  (landAnswer H M reads.pass { w with store := (changeForward id req w.store).2 }).isOk = false

instance {μ : Type} (H : Host μ) (M : NatBackend μ) (a : DnatAdapter) (reads : ForwardReads) (id : ForwardId)
    (req : AddForwardRequest) (w : World (Tabled μ)) : Decidable (UpdateParts H M a reads id req w) :=
  have : Decidable (∃ old, w.store.findForward id = some old ∧ old.destHost = req.destHost) :=
    Option.decidableExistsMem (w.store.findForward id)
  have : Decidable (∃ ip, w.store.resolvedIp id = some ip ∧
      ¬HasDnat w.host.table req.proto req.listen req.destPort ip) := Option.decidableExistsMem (w.store.resolvedIp id)
  inferInstanceAs (Decidable (_ ∧ _ ∧ _ ∧ _ ∧ _))

/-- The steps that leave an address in memory without the rules in the table. -/
def Sys.Parts (s : Sys τ κ) : Event κ → Prop
  | .update a reads id req => UpdateParts (machine B) (machineNat N) a reads id req s.world
  -- The first pass is refused, and the file has addresses whose rules are not in the table, as none
  -- are after a reboot.
  | .restart booted now env =>
    let w := (prepare (tabled (machine B)) cfg now (s.loaded booted)).2
    (installAnswer (machineNat N) (resolveAll env w.store).resolved w.host.host).1.isOk = false ∧
      ∃ rule ∈ s.world.host.host.disk.written.forwards, ∃ ip,
        s.world.host.host.disk.written.resolvedIp rule.id = some ip ∧
          (booted.isSome = true ∨ ¬HasDnat s.world.host.table rule.proto rule.listen rule.destPort ip)
  | .add _ _ _ _ _ _ | .remove _ _ | .tick _ => False

instance (s : Sys τ κ) : (e : Event κ) → Decidable (s.Parts B N cfg e)
  | .update a reads id req =>
    inferInstanceAs (Decidable (UpdateParts (machine B) (machineNat N) a reads id req s.world))
  | .restart booted _ _ =>
    let file := s.world.host.host.disk.written
    have (rule : ForwardRule) : Decidable (∃ ip, file.resolvedIp rule.id = some ip ∧
        (booted.isSome = true ∨ ¬HasDnat s.world.host.table rule.proto rule.listen rule.destPort ip)) :=
      Option.decidableExistsMem (file.resolvedIp rule.id)
    inferInstanceAs (Decidable (_ ∧ ∃ rule ∈ file.forwards, _))
  | .add _ _ _ _ _ _ | .remove _ _ | .tick _ => .isFalse not_false

end System

/-! ## The list and the store -/

section List

variable {κ : Type} {w : World (Tabled κ)}

/-- A note on a conflict leaves the rest of a view alone. -/
theorem markConflict_eq (defaultIface : Option String) (others : List UnifiedForwardView) (v : UnifiedForwardView) :
    ∃ conflict, markConflict defaultIface others v = { v with conflict := conflict } := by
  unfold markConflict
  dsimp only
  split
  · exact ⟨true, rfl⟩
  · exact ⟨v.conflict, rfl⟩

/-- What the list says of the agent's own forwards is what the store says. -/
theorem truthful_iff : Truthful w ↔ Tells w.store w.host.table := by
  constructor
  · intro h rule hrule ip hip
    have hmem : markConflict none [] (nativeUnified w.store rule) ∈
        (listForwards id ⟨false, "", []⟩ ⟨.ok (), .ok (), none⟩ w.store).forwards :=
      List.mem_append_left _ (List.mem_map_of_mem (List.mem_map_of_mem hrule))
    obtain ⟨conflict, heq⟩ := markConflict_eq none [] (nativeUnified w.store rule)
    have hactive : (nativeUnified w.store rule).active = true := by
      show (w.store.resolvedIp rule.id).isSome = true
      rw [hip]
      rfl
    rw [heq] at hmem
    obtain ⟨ip', hip', hdnat⟩ := h id ⟨false, "", []⟩ ⟨.ok (), .ok (), none⟩ _ hmem rfl hactive
    obtain rfl : ip = ip' := Option.some.inj (hip.symm.trans hip')
    exact hdnat
  · intro h encodeKey a reads v hv horigin hactive
    cases List.mem_append.mp hv with
    | inl hnative =>
      obtain ⟨v', hv', rfl⟩ := List.mem_map.mp hnative
      obtain ⟨rule, hrule, rfl⟩ := List.mem_map.mp hv'
      obtain ⟨conflict, heq⟩ := markConflict_eq reads.defaultIface _ (nativeUnified w.store rule)
      rw [heq] at hactive ⊢
      obtain ⟨ip, hip⟩ := Option.isSome_iff_exists.mp hactive
      exact ⟨ip, hip, h rule hrule ip hip⟩
    | inr hdnat =>
      -- a view of dnat is not one of the agent's
      obtain ⟨v', hv', rfl⟩ := List.mem_map.mp hdnat
      obtain ⟨conflict, heq⟩ := markConflict_eq reads.defaultIface _ v'
      rw [heq] at horigin
      split at hv'
      · obtain ⟨r, -, rfl⟩ := List.mem_map.mp hv'
        cases horigin
      · cases hv'

end List

/-! ## What the store says after a change -/

section Changes

variable {s : State} {table : List ResolvedForward} {env : ForwardRule → HostEnv} {req : AddForwardRequest}
variable {who : DeviceId} {now : DateTime} {id : ForwardId} {old : ForwardRule}

/-- A pass that is accepted brings addresses and table together. -/
theorem tells_pass (hids : State.IdsApart s.forwards) :
    Tells (s.setResolved (resolveAll env s).map) (resolveAll env s).resolved := by
  intro rule hrule ip hip
  obtain ⟨f, hf, hid, rf, hone, rfl⟩ := resolveAll_map hip
  obtain rfl := List.inj_on_of_nodup_map hids hf hrule hid
  obtain ⟨hproto, hlisten, hdest, -⟩ := resolveOne_fields hone
  rw [← hproto, ← hlisten, ← hdest]
  exact hasDnat_of_mem (mem_resolveAll.mpr ⟨f, hf, hone⟩)

/-- A new rule has no address. -/
theorem tells_add (h : Tells s table) (hnone : s.resolvedIp id = none) :
    Tells (s.addForward req who now id).2 table := by
  intro rule hrule ip hip
  cases State.mem_addForward hrule with
  | inl hold => exact h rule hold ip hip
  | inr hnew =>
    subst hnew
    cases hnone.symm.trans hip

theorem tells_remove (h : Tells s table) (hremoved : (s.removeForward id).1 = true) :
    Tells (s.removeForward id).2 table := by
  intro rule hrule ip hip
  unfold State.resolvedIp at hip
  rw [(State.removeForward_true hremoved).2] at hip
  exact h rule (State.mem_removeForward.mp hrule).1 ip (State.dropResolved_eq_some.mp hip).2

/-- A changed rule keeps its address with its target, and needs rules for its new ports then. -/
theorem tells_change_iff (hids : State.IdsApart s.forwards) (h : Tells s table)
    (hfind : s.findForward id = some old) : Tells (changeForward id req s).2 table ↔
      (old.destHost = req.destHost → ∀ ip, s.resolvedIp id = some ip →
        HasDnat table req.proto req.listen req.destPort ip) := by
  have hmem (f : ForwardRule) : f ∈ State.replaceForward id (State.updatedRule old req) s.forwards ↔
      (f ∈ s.forwards ∧ f.id ≠ id) ∨ f = State.updatedRule old req := hids.mem_replaceForward hfind
  have hold : (State.updatedRule old req).id = id := updatedRule_id hfind
  rw [changeForward_some hfind]
  constructor
  · intro htells hhost ip hip
    refine htells (State.updatedRule old req) ((hmem _).mpr (.inr rfl)) ip ?_
    unfold State.resolvedIp
    rw [hold, if_neg (not_not.mpr hhost)]
    exact hip
  · intro hnew rule hrule ip hip
    unfold State.resolvedIp at hip
    -- The other rules keep their addresses; the changed one has lost its own with its host.
    cases (hmem rule).mp hrule with
    | inl hkept =>
      refine h rule hkept.1 ip ?_
      split at hip
      · exact (State.dropResolved_eq_some.mp hip).2
      · exact hip
    | inr heq =>
      subst heq
      rw [hold] at hip
      split at hip
      · exact ((State.dropResolved_eq_some.mp hip).1 rfl).elim
      · next hhost => exact hnew (not_not.mp hhost) ip hip

end Changes

/-! ## What a request leaves -/

section Requests

variable {κ : Type} {H : Host κ} {N : NatBackend κ} {env : ForwardRule → HostEnv} {w : World (Tabled κ)}

/-- The table has what the store says. -/
def Told (w : World (Tabled κ)) : Prop := Tells w.store w.host.table

/-- The kernel accepts the pass. -/
def Accepted (N : NatBackend κ) (env : ForwardRule → HostEnv) (w : World (Tabled κ)) : Prop :=
  (installAnswer N (resolveAll env w.store).resolved w.host.host).1.isOk = true

theorem told_of_passes {r : Except String Unit} {w' : World (Tabled κ)} (hids : State.IdsApart w.store.forwards)
    (h : Passes N env w r w') : Told w' ↔ Accepted N env w ∨ Told w := by
  unfold Passes at h
  dsimp only at h
  unfold Accepted Told
  cases hinstall : (installAnswer N (resolveAll env w.store).resolved w.host.host).1 with
  | ok =>
    rw [hinstall] at h
    obtain ⟨-, hstore, htable⟩ := h
    rw [hstore, htable]
    exact ⟨fun _ => .inl rfl, fun _ => tells_pass hids⟩
  | error e =>
    rw [hinstall] at h
    obtain ⟨-, hstore, htable⟩ := h
    rw [hstore, htable]
    exact ⟨.inr, fun h => h.resolve_left Bool.false_ne_true⟩

/-- The end of a request: a pass, and what leaves memory and table alone. -/
def Reports {α : Type} (N : NatBackend κ) (env : ForwardRule → HostEnv) (m : Act (World (Tabled κ)) ApiError α) : Prop :=
  ∀ w, State.IdsApart w.store.forwards → wp m (fun _ w' => Told w' ↔ Accepted N env w ∨ Told w) w

theorem reports_applyForwards : Reports N env (applyForwards (tabled H) (tabledNat N) env) := by
  intro w hids
  apply wp_mono wp_applyForwards
  intro r w' h
  obtain ⟨r', -, hpass⟩ := h
  exact told_of_passes hids hpass

theorem reports_view {rule : ForwardRule} :
    Reports N env (applyForwards (tabled H) (tabledNat N) env >>= fun _ => viewForward rule) := by
  intro w hids
  rw [wp_bind]
  apply wp_mono (reports_applyForwards w hids)
  intro r w' h
  cases r with
  | ok => exact h
  | error e => exact h

/-- Save, and go on with the pass. -/
theorem told_land {α : Type} {m : Act (World (Tabled κ)) ApiError α} (hm : Reports N env m)
    (hids : State.IdsApart w.store.forwards) : wp (saveStore (tabled H) >>= fun _ => m)
      (fun _ w' => Told w' ↔ (landAnswer H N env w).isOk = true ∨ Told w) w := by
  rw [wp_bind]
  unfold wp landAnswer
  rw [saveStore_tabled]
  cases hanswer : H.save w.store w.host.host with
  | mk r k =>
    cases r with
    | error e => exact ⟨.inr, fun h => h.resolve_left Bool.false_ne_true⟩
    | ok => exact hm { w with host := { w.host with host := k } } hids

variable {a : DnatAdapter} {reads : ForwardReads} {who : DeviceId} {req : AddForwardRequest} {now : DateTime}
variable {id : ForwardId}

theorem told_addForward (hids : State.IdsApart w.store.forwards) (hfresh : ∀ f ∈ w.store.forwards, f.id ≠ id)
    (hnone : w.store.resolvedIp id = none) (h : Told w) :
    wp (addForward (tabled H) (tabledNat N) a reads who req now id) (fun _ w' => Told w') w := by
  simp only [addForward, wp_bind, wp_lift]
  cases checkForwardRequest a reads.dnatConf reads.dnatIface req with
  | error e => exact h
  | ok =>
    have hreports : Reports N reads.pass (applyForwards (tabled H) (tabledNat N) reads.pass >>=
        fun _ => viewForward (w.store.addForward req who now id).1) := reports_view
    have hland := told_land (H := H) (w := { w with store := (w.store.addForward req who now id).2 }) hreports
      (hids.add hfresh)
    simp only [andThen_ok, wp_bind, onStore, wp_update]
    rw [← wp_bind]
    apply wp_mono hland
    intro r w' hw'
    have hadded : Told { w with store := (w.store.addForward req who now id).2 } := tells_add h hnone
    exact hw'.mpr (.inr hadded)

theorem told_removeForward (hids : State.IdsApart w.store.forwards) (h : Told w) :
    wp (removeForward (tabled H) (tabledNat N) env id) (fun _ w' => Told w') w := by
  simp only [removeForward, wp_bind, onStore, wp_update, andThen_ok, rejectIf, wp_onlyIf]
  cases hremoved : (w.store.removeForward id).1 with
  | false =>
    refine ⟨fun _ => ?_, fun hc => by cases hc⟩
    -- A removal that finds no rule leaves the addresses alone.
    have hsame : (w.store.removeForward id).2.resolved = w.store.resolved := by
      unfold State.removeForward at hremoved ⊢
      dsimp only at hremoved ⊢
      split at hremoved
      · cases hremoved
      · next hlen => rw [if_neg hlen]
    intro rule hrule ip hip
    have hip' : w.store.resolved rule.id = some ip := by
      rw [← hsame]
      exact hip
    exact h rule (State.mem_removeForward.mp hrule).1 ip hip'
  | true =>
    refine ⟨fun hc => (by cases hc), fun _ => ?_⟩
    have hreports : Reports N env (applyForwards (tabled H) (tabledNat N) env) := reports_applyForwards
    have hland := told_land (H := H) (w := { w with store := (w.store.removeForward id).2 }) hreports hids.remove
    rw [← wp_bind]
    apply wp_mono hland
    intro r w' hw'
    have htold : Told { w with store := (w.store.removeForward id).2 } := tells_remove h hremoved
    exact hw'.mpr (.inr htold)

theorem told_updateForward_iff (hids : State.IdsApart w.store.forwards) (h : Told w) :
    wp (updateForward (tabled H) (tabledNat N) a reads id req)
      (fun _ w' => Told w' ↔ ¬UpdateParts H N a reads id req w) w := by
  simp only [updateForward, wp_bind, wp_lift]
  unfold UpdateParts
  cases checkForwardRequest a reads.dnatConf reads.dnatIface req with
  | error e => exact ⟨fun _ hparts => Bool.false_ne_true hparts.1, fun _ => h⟩
  | ok =>
    simp only [andThen_ok, wp_bind, wp_get, rejectIf, wp_onlyIf, onStore, wp_update]
    refine ⟨fun hclash => ?_, fun hclash => ?_⟩
    · rw [hclash]
      exact ⟨fun _ hparts => Bool.false_ne_true hparts.2.1.symm, fun _ => h⟩
    · rw [hclash]
      cases hfind : w.store.findForward id with
      | none =>
        have hchange : changeForward id req w.store = (none, w.store) := by
          unfold changeForward State.updateForward
          rw [hfind]
        rw [hchange]
        refine ⟨fun _ hparts => ?_, fun _ => h⟩
        obtain ⟨old, hold, -⟩ := hparts.2.2.1
        cases hold
      | some old =>
        have hfst : (changeForward id req w.store).1 = some (State.updatedRule old req) := by
          rw [changeForward_some hfind]
        have hreports : Reports N reads.pass (applyForwards (tabled H) (tabledNat N) reads.pass >>=
            fun _ => viewForward (State.updatedRule old req)) := reports_view
        have hland := told_land (H := H) (w := { w with store := (changeForward id req w.store).2 }) hreports
          (idsApart_changeForward hids)
        have htold : Tells (changeForward id req w.store).2 w.host.table ↔ _ := tells_change_iff hids h hfind
        rw [hfst]
        apply wp_mono hland
        intro r w' hw'
        rw [hw']
        unfold Told
        rw [htold]
        -- A pass that is accepted tells the truth of any rules; one that is refused leaves the table of the old ones.
        cases (landAnswer H N reads.pass { w with store := (changeForward id req w.store).2 }).isOk with
        | true => exact ⟨fun _ hparts => Bool.false_ne_true hparts.2.2.2.2.symm, fun _ => .inl rfl⟩
        | false =>
          constructor
          · intro hor hparts
            obtain ⟨-, -, ⟨old', hold, hhost⟩, ⟨ip, hip, hnot⟩, -⟩ := hparts
            cases hold
            exact hnot (hor.resolve_left Bool.false_ne_true hhost ip hip)
          · intro hparts
            refine .inr fun hhost ip hip => ?_
            by_contra hnot
            exact hparts ⟨rfl, rfl, ⟨old, rfl, hhost⟩, ⟨ip, hip, hnot⟩, rfl⟩

theorem told_resolveTick {τ : Type} [DecidableEq τ] {hash : List ResolvedForward → τ} {lastHash : Option τ}
    (hids : State.IdsApart w.store.forwards) (h : Told w) :
    wp (resolveTick (tabled H) (tabledNat N) hash env lastHash) (fun _ w' => Told w') w := by
  simp only [resolveTick, wp_bind, wp_get, andThen_ok]
  split
  · exact h
  · rw [wp_bind, wp_attempt]
    apply wp_mono wp_commitForwards
    intro r w' hpass
    have htold := (told_of_passes hids hpass).mpr (.inr h)
    cases r with
    | ok => exact htold
    | error e => exact htold

theorem told_applyNow (hids : State.IdsApart w.store.forwards) :
    wp (applyNow (tabled H) (tabledNat N) env) (fun _ w' => Told w' ↔ Accepted N env w ∨ Told w) w := by
  apply wp_mono wp_applyNow_tabled
  intro r w' hpass
  exact told_of_passes hids hpass

end Requests

/-! ## Identifiers -/

section Apart

variable {κ : Type} {B : NftBackend κ} {N : NatBackend κ} {cfg : AgentConfig} {env : ForwardRule → HostEnv}
variable {now : DateTime} {id : ForwardId}

/-- In memory and in the state file no two rules have the same id. -/
structure Apart (w : World (Tabled (Machine κ))) : Prop where
  memory : State.IdsApart w.store.forwards
  file : State.IdsApart w.host.host.disk.written.forwards

theorem preserves_onStore {ε α : Type} {f : State → α × State}
    (h : ∀ s, State.IdsApart s.forwards → State.IdsApart (f s).2.forwards) :
    Preserves Apart (onStore f : Act (World (Tabled (Machine κ))) ε α) := fun _ hw => ⟨h _ hw.memory, hw.file⟩

theorem preserves_callSave : Preserves Apart (callSave (tabled (machine B))) := by
  intro w hw
  refine ⟨hw.memory, ?_⟩
  show State.IdsApart (w.host.host.disk.save w.store).2.written.forwards
  unfold Disk.save
  split
  · exact hw.memory
  · exact hw.memory
  · exact hw.file

theorem preserves_saveStore : Preserves Apart (saveStore (tabled (machine B))) := preserves_mapErr preserves_callSave

/-- What belongs to the forwards and the file is kept. -/
theorem Apart.of_keeps {ε α : Type} {m : Act (World (Tabled (Machine κ))) ε α}
    (h : Keeps (fun w => (w.store.forwards, w.host.host.disk)) m) : Preserves Apart m := by
  refine h.preserves fun w w' heq hw => ?_
  obtain ⟨hforwards, hdisk⟩ := Prod.mk.inj heq
  refine ⟨?_, ?_⟩
  · rw [hforwards]
    exact hw.memory
  · rw [hdisk]
    exact hw.file

theorem preserves_installNat {resolved : List ResolvedForward} :
    Preserves Apart (installNat (tabledNat (machineNat N)) resolved) := by
  have hdisk : ∀ m : Machine κ, (installAnswer (machineNat N) resolved m).2.disk = m.disk := by
    intro m
    unfold installAnswer
    split
    · rfl
    · rfl
  refine Apart.of_keeps fun w => ?_
  rw [installNat_tabled]
  dsimp only
  rw [Tabled.replace_host, hdisk]

theorem preserves_commitForwards {r : Resolution} :
    Preserves Apart (commitForwards (tabled (machine B)) (tabledNat (machineNat N)) r) :=
  preserves_bind preserves_installNat fun _ =>
    preserves_bind (preserves_onStore fun _ h => h) fun _ => preserves_ignore preserves_callSave

theorem preserves_applyNow : Preserves Apart (applyNow (tabled (machine B)) (tabledNat (machineNat N)) env) :=
  preserves_bind preserves_get fun _ => preserves_bind preserves_commitForwards fun _ => preserves_pure

theorem preserves_applyForwards :
    Preserves Apart (applyForwards (tabled (machine B)) (tabledNat (machineNat N)) env) :=
  preserves_bind (preserves_mapErr preserves_applyNow) fun _ => preserves_pure

theorem preserves_rejectIf {c : Bool} {e : ApiError} :
    Preserves Apart (rejectIf c e : Act (World (Tabled (Machine κ))) ApiError Unit) := preserves_onlyIf preserves_fail

theorem preserves_viewForward {rule : ForwardRule} :
    Preserves Apart (viewForward rule : Act (World (Tabled (Machine κ))) ApiError ForwardView) :=
  preserves_bind preserves_get fun _ => preserves_pure

/-- The id of a new rule is that of no other. -/
theorem apart_addForward {a : DnatAdapter} {reads : ForwardReads} {who : DeviceId} {req : AddForwardRequest}
    {w : World (Tabled (Machine κ))} (hfresh : ∀ f ∈ w.store.forwards, f.id ≠ id) (h : Apart w) :
    wp (addForward (tabled (machine B)) (tabledNat (machineNat N)) a reads who req now id) (fun _ w' => Apart w') w := by
  simp only [addForward, wp_bind, wp_lift]
  cases checkForwardRequest a reads.dnatConf reads.dnatIface req with
  | error e => exact h
  | ok =>
    simp only [andThen_ok, wp_bind, onStore, wp_update]
    rw [← wp_bind]
    have hrest : Preserves Apart (saveStore (tabled (machine B)) >>= fun _ =>
        applyForwards (tabled (machine B)) (tabledNat (machineNat N)) reads.pass >>= fun _ =>
          viewForward (w.store.addForward req who now id).1) :=
      preserves_bind preserves_saveStore fun _ => preserves_bind preserves_applyForwards fun _ => preserves_viewForward
    exact hrest { w with store := (w.store.addForward req who now id).2 } ⟨h.memory.add hfresh, h.file⟩

theorem preserves_updateForward {a : DnatAdapter} {reads : ForwardReads} {req : AddForwardRequest} :
    Preserves Apart (updateForward (tabled (machine B)) (tabledNat (machineNat N)) a reads id req) := by
  refine preserves_bind preserves_lift fun _ => preserves_bind preserves_get fun w =>
    preserves_bind preserves_rejectIf fun _ =>
      preserves_bind (preserves_onStore fun s h => idsApart_changeForward h) fun changed => ?_
  cases changed with
  | none => exact preserves_fail
  | some rule =>
    exact preserves_bind preserves_saveStore fun _ => preserves_bind preserves_applyForwards fun _ => preserves_viewForward

theorem preserves_removeForward :
    Preserves Apart (removeForward (tabled (machine B)) (tabledNat (machineNat N)) env id) :=
  preserves_bind (preserves_onStore fun _ h => h.remove) fun _ =>
    preserves_bind preserves_rejectIf fun _ => preserves_bind preserves_saveStore fun _ => preserves_applyForwards

theorem preserves_resolveTick {τ : Type} [DecidableEq τ] {hash : List ResolvedForward → τ} {lastHash : Option τ} :
    Preserves Apart (resolveTick (tabled (machine B)) (tabledNat (machineNat N)) hash env lastHash) := by
  refine preserves_bind preserves_get fun w => ?_
  dsimp only
  split
  · exact preserves_pure
  · refine preserves_bind (preserves_attempt preserves_commitForwards) fun r => ?_
    cases r with
    | ok => exact preserves_pure
    | error e => exact preserves_pure

theorem pruneExpired_forwards (s : State) (now : DateTime) :
    (s.pruneExpired now).2.forwards = s.forwards ∧ (s.pruneExpired now).2.resolved = s.resolved := by
  unfold State.pruneExpired
  dsimp only
  split
  · exact ⟨rfl, rfl⟩
  · exact ⟨rfl, rfl⟩

/-- Rebuilding the ruleset leaves the store, the table and the file alone. -/
theorem keeps_ruleset (c : RulesetConfig) (entries : List Entry) :
    Keeps (fun w : World (Tabled (Machine κ)) => (w.store, w.host.table, w.host.host.disk))
      (applyRuleset (tabled (machine B)) c entries) := by
  refine keeps_applyRuleset fun c w => ?_
  unfold callApply
  split
  · next k h =>
    have hk : ((tabled (machine B)).apply c entries w.host).2 = k := congrArg Prod.snd h
    subst hk
    rfl
  · next e k h =>
    have hk : ((tabled (machine B)).apply c entries w.host).2 = k := congrArg Prod.snd h
    subst hk
    rfl

theorem keeps_prepare (cfg : AgentConfig) (now : DateTime) :
    Keeps (fun w : World (Tabled (Machine κ)) => (w.store.forwards, w.store.resolved, w.host.table))
    (prepare (tabled (machine B)) cfg now) := by
  have hprune : Keeps (fun w : World (Tabled (Machine κ)) => (w.store.forwards, w.store.resolved, w.host.table))
      (onStore fun s => s.pruneExpired now : Act (World (Tabled (Machine κ))) String (List IpNet)) := by
    intro w
    obtain ⟨hforwards, hresolved⟩ := pruneExpired_forwards w.store now
    exact Prod.ext hforwards (Prod.ext hresolved rfl)
  refine keeps_bind hprune fun _ => keeps_bind (keeps_onlyIf fun _ => rfl) fun _ => keeps_bind keeps_get fun w =>
    keeps_bind (fun u => ?_) fun _ => fun _ => rfl
  have hruleset := keeps_ruleset (B := B) (cfg.rulesetWith w.store.rulesetFlags) w.store.entries u
  simp only [Prod.mk.injEq] at hruleset ⊢
  obtain ⟨hstore, htable, -⟩ := hruleset
  rw [hstore, htable]
  exact ⟨rfl, rfl, rfl⟩

theorem preserves_prepare (cfg : AgentConfig) (now : DateTime) :
    Preserves Apart (prepare (tabled (machine B)) cfg now) := by
  have hprune : ∀ s : State, State.IdsApart s.forwards → State.IdsApart (s.pruneExpired now).2.forwards := by
    intro s h
    rw [(pruneExpired_forwards s now).1]
    exact h
  refine preserves_bind (preserves_onStore hprune) fun _ =>
    preserves_bind (preserves_onlyIf preserves_callSave) fun _ => preserves_bind preserves_get fun w =>
      preserves_bind (Apart.of_keeps fun u => ?_) fun _ => Apart.of_keeps fun _ => rfl
  have hruleset := keeps_ruleset (B := B) (cfg.rulesetWith w.store.rulesetFlags) w.store.entries u
  simp only [Prod.mk.injEq] at hruleset ⊢
  exact ⟨congrArg State.forwards hruleset.1, hruleset.2.2⟩

end Apart

/-! ## Runs -/

section Runs

variable {τ κ : Type} [DecidableEq τ] {B : NftBackend κ} {N : NatBackend κ} {cfg : AgentConfig}
variable {hash : List ResolvedForward → τ} {s s' : Sys τ κ} {e : Event κ} {booted : Option κ} {now : DateTime}
variable {env : ForwardRule → HostEnv} {w : World (Tabled (Machine κ))}

/-- A rule is added under an id of its own. -/
theorem step_add {a : DnatAdapter} {reads : ForwardReads} {who : DeviceId} {req : AddForwardRequest} {id : ForwardId}
    (hstep : step B N cfg hash s (.add a reads who req now id) = some s') :
    s.Fresh id ∧ s' = { s with world :=
      (addForward (tabled (machine B)) (tabledNat (machineNat N)) a reads who req now id s.world).2 } := by
  unfold step at hstep
  dsimp only at hstep
  split at hstep
  · next hfresh =>
    cases hstep
    exact ⟨hfresh, rfl⟩
  · cases hstep

/-- A start that comes to its pass. -/
theorem step_restart (hstep : step B N cfg hash s (.restart booted now env) = some s') :
    ∃ w, prepare (tabled (machine B)) cfg now (s.loaded booted) = (.ok (), w) ∧
      s' = ⟨(applyNow (tabled (machine B)) (tabledNat (machineNat N)) env w).2, none⟩ := by
  unfold step at hstep
  dsimp only at hstep
  split at hstep
  · next w hprepare =>
    cases hstep
    exact ⟨w, hprepare, rfl⟩
  · cases hstep

theorem step_apart (h : Apart s.world) (hstep : step B N cfg hash s e = some s') : Apart s'.world := by
  cases e with
  | add a reads who req now id =>
    obtain ⟨hfresh, rfl⟩ := step_add hstep
    exact apart_addForward hfresh.1 h
  | update a reads id req =>
    cases hstep
    exact preserves_updateForward _ h
  | remove env id =>
    cases hstep
    exact preserves_removeForward _ h
  | tick env =>
    cases hstep
    exact preserves_resolveTick _ h
  | restart booted now env =>
    obtain ⟨w, hprepare, rfl⟩ := step_restart hstep
    have hloaded : Apart (s.loaded booted) := by
      refine ⟨h.file, ?_⟩
      unfold Sys.loaded
      cases booted with
      | none => exact h.file
      | some kernel => exact h.file
    have hw := preserves_prepare (B := B) cfg now _ hloaded
    rw [hprepare] at hw
    exact preserves_applyNow w hw

omit [DecidableEq τ] in
/-- Where the first pass starts from, the store is that of the file. -/
theorem told_prepare (hprepare : prepare (tabled (machine B)) cfg now (s.loaded booted) = (.ok (), w)) :
    Told w ↔ Tells s.world.host.host.disk.written (s.loaded booted).host.table := by
  have hkeeps := keeps_prepare (B := B) cfg now (s.loaded booted)
  rw [hprepare] at hkeeps
  simp only [Prod.mk.injEq] at hkeeps
  obtain ⟨hforwards, hresolved, htable⟩ := hkeeps
  unfold Told Tells State.resolvedIp
  rw [hforwards, hresolved, htable]
  exact Iff.rfl

omit [DecidableEq τ] in
theorem told_restart_iff (hids : State.IdsApart w.store.forwards)
    (hprepare : prepare (tabled (machine B)) cfg now (s.loaded booted) = (.ok (), w)) :
    Told (applyNow (tabled (machine B)) (tabledNat (machineNat N)) env w).2 ↔
      ¬s.Parts B N cfg (.restart booted now env) := by
  have happly : Told (applyNow (tabled (machine B)) (tabledNat (machineNat N)) env w).2 ↔
      Accepted (machineNat N) env w ∨ Told w := told_applyNow hids
  rw [happly, told_prepare hprepare]
  unfold Sys.Parts
  dsimp only
  rw [hprepare]
  unfold Accepted
  -- Only a pass that is refused can leave addresses without rules.
  cases (installAnswer (machineNat N) (resolveAll env w.store).resolved w.host.host).1.isOk with
  | true => exact ⟨fun _ hparts => Bool.false_ne_true hparts.1.symm, fun _ => .inl rfl⟩
  | false =>
    constructor
    · intro hor hparts
      obtain ⟨-, rule, hrule, ip, hip, hwhy⟩ := hparts
      have hdnat := hor.resolve_left Bool.false_ne_true rule hrule ip hip
      -- A kernel that has been booted has no NAT table.
      cases booted with
      | some kernel => exact not_hasDnat_nil hdnat
      | none => exact hwhy.elim Bool.false_ne_true fun hnot => hnot hdnat
    · intro hparts
      refine .inr fun rule hrule ip hip => ?_
      by_contra hnot
      refine hparts ⟨rfl, rule, hrule, ip, hip, ?_⟩
      cases booted with
      | some kernel => exact .inl rfl
      | none => exact .inr hnot

/-- From a state that tells the truth, a step keeps it unless memory and table part. -/
theorem step_told_iff (hapart : Apart s.world) (h : Told s.world) (hstep : step B N cfg hash s e = some s') :
    Told s'.world ↔ ¬s.Parts B N cfg e := by
  cases e with
  | add a reads who req now id =>
    obtain ⟨hfresh, rfl⟩ := step_add hstep
    exact ⟨fun _ hparts => hparts, fun _ => told_addForward hapart.memory hfresh.1 hfresh.2 h⟩
  | update a reads id req =>
    cases hstep
    exact told_updateForward_iff hapart.memory h
  | remove env id =>
    cases hstep
    exact ⟨fun _ hparts => hparts, fun _ => told_removeForward hapart.memory h⟩
  | tick env =>
    cases hstep
    exact ⟨fun _ hparts => hparts, fun _ => told_resolveTick hapart.memory h⟩
  | restart booted now env =>
    obtain ⟨w, hprepare, rfl⟩ := step_restart hstep
    have hforwards : State.IdsApart w.store.forwards := by
      have hkeeps := keeps_prepare (B := B) cfg now (s.loaded booted)
      rw [hprepare] at hkeeps
      rw [show w.store.forwards = (s.loaded booted).store.forwards from congrArg Prod.fst hkeeps]
      exact hapart.file
    exact told_restart_iff hforwards hprepare

end Runs

/-- In a run from a fresh installation, what is listed as active is in the table all the time,
exactly when no step parts memory and table. -/
theorem active_truthful_iff {τ κ : Type} [DecidableEq τ] (B : NftBackend κ) (N : NatBackend κ) (cfg : AgentConfig)
    (hash : List ResolvedForward → τ) (kernel : κ) (answers : List (Except String Unit)) (es : List (Event κ))
    (s' : Sys τ κ) (hrun : Lts.run (step B N cfg hash) (.start cfg kernel answers) es = some s') :
    Lts.Always (step B N cfg hash) (fun s => Truthful s.world) (.start cfg kernel answers) es ↔
      Lts.StepsMeet (step B N cfg hash) (fun s e => ¬s.Parts B N cfg e) (.start cfg kernel answers) es := by
  have hapart : Apart (Sys.start cfg kernel answers : Sys τ κ).world := ⟨List.nodup_nil, List.nodup_nil⟩
  have htold : Told (Sys.start cfg kernel answers : Sys τ κ).world := nofun
  refine Lts.always_iff_stepsMeet_of_invariant (I := fun s => Apart s.world) (fun s e s' hs htruthful hstep => ?_)
    hapart (truthful_iff.mpr htold) hrun
  refine ⟨step_apart hs hstep, ?_⟩
  rw [truthful_iff]
  exact step_told_iff hs (truthful_iff.mp htruthful) hstep

/-! ### A change of ports and a reboot -/

/-- The calls for the allowlist take no answer from the script. -/
def quietNft : NftBackend (List Bool) where
  apply _ _ answers := (.ok (), answers)
  add _ answers := (.ok (), answers)
  remove _ answers := (.ok (), answers)
  list answers := (.ok [], answers)

def eth0Reads : ForwardReads := ⟨some "eth0", .ok (), some "eth0", fun _ => eth0⟩

/-- From a port to the web server at an address. -/
def webTo (port : UInt16) (host : String) : AddForwardRequest :=
  ⟨.tcp, some "eth0", .single port, host, .single 8443, .auto, ""⟩

def addWeb : Event (List Bool) := .add ⟨false, "", []⟩ eth0Reads ⟨1⟩ (webTo 443 "192.0.2.10") 0 ⟨1⟩

def changeWeb (port : UInt16) (host : String) : Event (List Bool) :=
  .update ⟨false, "", []⟩ eth0Reads ⟨1⟩ (webTo port host)

def reboot (answers : List Bool) : Event (List Bool) := .restart (some answers) 0 fun _ => eth0

/-- The runs of a host whose NAT table answers so. -/
abbrev AlwaysTruthful (answers : List Bool) (es : List (Event (List Bool))) : Prop :=
  Lts.Always (step quietNft answerNat .default id) (fun s => Truthful s.world)
    (.start .default answers [] : Sys (List ResolvedForward) (List Bool)) es

/-- A refused change of the target, then one of the ports that is accepted, and a reboot. -/
theorem active_truthful_accepted :
    AlwaysTruthful [true, false] [addWeb, changeWeb 443 "192.0.2.11", changeWeb 8443 "192.0.2.11", reboot []] := by
  have hrun : (Lts.run (step quietNft answerNat .default id)
      (.start .default [true, false] [] : Sys (List ResolvedForward) (List Bool))
      [addWeb, changeWeb 443 "192.0.2.11", changeWeb 8443 "192.0.2.11", reboot []]).isSome = true := by decide +kernel
  obtain ⟨s', hs'⟩ := Option.isSome_iff_exists.mp hrun
  exact (active_truthful_iff quietNft answerNat .default id [true, false] [] _ s' hs').mpr (by decide +kernel)

/-- The new ports are refused, or the first pass after a reboot: the forward is listed as active, and
the table has other ports or none. -/
theorem refused_listed_active :
    ¬AlwaysTruthful [true, false] [addWeb, changeWeb 8443 "192.0.2.10"] ∧
      ¬AlwaysTruthful [true] [addWeb, reboot [false]] := by
  have hfinal : ∀ answers es, (Lts.run (step quietNft answerNat .default id)
      (.start .default answers [] : Sys (List ResolvedForward) (List Bool)) es).any
        (fun s => !decide (Tells s.world.store s.world.host.table)) = true → ¬AlwaysTruthful answers es := by
    intro answers es hany h
    obtain ⟨s, hrun, hnot⟩ := (Option.any_eq_true _ _).mp hany
    have htold : Tells s.world.store s.world.host.table :=
      truthful_iff.mp (h es [] s (List.append_nil es).symm hrun)
    simp [htold] at hnot
  exact ⟨hfinal _ _ (by decide +kernel), hfinal _ _ (by decide +kernel)⟩

end Ipgate.Active
