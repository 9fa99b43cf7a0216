-- SUMMARY: Taking a rule of dnat over: when the migration is done as a whole or leaves everything as it was.
import Ipgate.Agent.Api.Frames
import Ipgate.Agent.Api.Table

/-!
# Migration from dnat

A migration adds a rule of the agent's own, installs it, and removes the rule of dnat. It
should end with the rule in one place and served there, or with an error and nothing in the
way of another attempt.
-/

namespace Ipgate.Migration

open Net Act

/-! ## What a migration should leave -/

/-- The rule of the agent says what the rule of dnat says. -/
structure Carries (rule : DnatRule) (new : ForwardRule) : Prop where
  listen : new.listen = rule.listen
  iface : new.iface = some rule.iface
  destHost : new.destHost = rule.remoteHost
  destPort : new.destPort = rule.destPort
  source : new.source = rule.source

section Statement

variable {κ : Type}

def forwards (site : Site κ) : List ForwardRule := site.world.store.forwards

/-- The rule is in the NAT table, with the address it has been resolved to. -/
def InTable (site : Site (Tabled κ)) (rule : ForwardRule) : Prop :=
  ∃ rf ∈ site.world.host.table, rf.proto = rule.proto ∧ rule.iface = some rf.iface ∧ rf.listen = rule.listen ∧
    rf.destPort = rule.destPort ∧ site.world.store.resolvedIp rule.id = some rf.remoteIp

/-- Beside the earlier rules there is one for the rule of dnat, and it is in the table. -/
def TakenOver (site site' : Site (Tabled κ)) (dnatKey : String) : Prop :=
  ∃ rule new, site.dnat.findRuleByPrefix dnatKey = some rule ∧ forwards site' = forwards site ++ [new] ∧
    Carries rule new ∧ InTable site' new

/-- The end of a migration: all of it is done, or dnat keeps its rule and no dead rule is left. -/
def AllOrNothing (decodeKey : String → Option String) (key : String) (site : Site (Tabled κ))
    (r : Except ApiError ForwardView) (site' : Site (Tabled κ)) : Prop :=
  match r with
  | .ok _ => ∃ dnatKey, decodeKey key = some dnatKey ∧
      site'.dnat.rules = site.dnat.rules.filter (fun d => d.prefixKey ≠ dnatKey) ∧ TakenOver site site' dnatKey
  | .error _ => site'.dnat.conf = site.dnat.conf ∧ (forwards site' = forwards site ∨
      ∃ dnatKey, decodeKey key = some dnatKey ∧ TakenOver site site' dnatKey)

end Statement

/-! ## Where it goes wrong -/

section Conditions

variable {κ : Type} (H : Host κ) (N : NatBackend κ) (decodeKey : String → Option String) (reads : DnatReads)
variable (who : DeviceId) (key : String) (now : DateTime) (id : ForwardId) (site : Site (Tabled κ))

/-- The store with the new rule. -/
def added (rule : DnatRule) : State := (site.world.store.addForward (dnatRuleToAddRequest rule) who now id).2

/-- The answers to saving the new rule and to installing it. -/
def addAnswer (rule : DnatRule) : Except String Unit :=
  match H.save (added who now id site rule) site.world.host.host with
  | (.ok (), k) => (installAnswer N (resolveAll reads.pass (added who now id site rule)).resolved k).1
  | (.error e, _) => .error e

/-- The checks are passed, and then the rule cannot be saved or not be installed. -/
def AddRefused : Prop :=
  ∃ dnatKey rule, migratable decodeKey reads site key = .ok (dnatKey, rule) ∧
    (addAnswer H N reads who now id site rule).isOk = false

/-- The new rule is in effect, and the file of dnat cannot be read to remove the old one. -/
def FileUnread : Prop :=
  ∃ dnatKey rule, migratable decodeKey reads site key = .ok (dnatKey, rule) ∧
    (addAnswer H N reads who now id site rule).isOk = true ∧
    ((resolveAll reads.pass (added who now id site rule)).map id).isSome ∧
    reads.conf.lock.isOk = true ∧ reads.conf.read.isOk = false

end Conditions

/-! ## How a migration ends -/

section Ends

variable {κ : Type} {H : Host κ} {N : NatBackend κ} {decodeKey : String → Option String} {reads : DnatReads}
variable {who : DeviceId} {key dnatKey : String} {now : DateTime} {id : ForwardId} {site site' : Site (Tabled κ)}
variable {rule : DnatRule} {env : ForwardRule → HostEnv} {s : State}

/-- What a rule that has passed the checks is like. -/
structure Migratable (decodeKey : String → Option String) (reads : DnatReads) (site : Site κ) (key dnatKey : String)
    (rule : DnatRule) : Prop where
  decoded : decodeKey key = some dnatKey
  found : site.dnat.findRuleByPrefix dnatKey = some rule
  valid : rule.listen.isValid = true
  free : clobbers site.world.store reads.defaultIface rule = false

theorem migratable_ok {site : Site κ} (h : migratable decodeKey reads site key = .ok (dnatKey, rule)) :
    Migratable decodeKey reads site key dnatKey rule := by
  unfold migratable at h
  obtain ⟨k, hkey, h⟩ := Except.bind_eq_ok.mp h
  have hdecoded : decodeKey key = some k := by
    unfold dnatPrefixFromKey at hkey
    split at hkey
    · cases hkey
    · split at hkey
      · next hsome =>
        cases hkey
        exact hsome
      · cases hkey
  -- Each check that does not fail leaves one of the facts behind.
  cases hfound : site.dnat.findRuleByPrefix k with
  | none =>
    rw [hfound] at h
    simp only [ite_self] at h
    cases h
  | some r =>
    rw [hfound] at h
    cases hlookup : reads.lookup.isOk with
    | false =>
      rw [hlookup] at h
      cases h
    | true =>
      rw [hlookup, if_pos rfl] at h
      dsimp only at h
      obtain ⟨_, hports, h⟩ := Except.bind_eq_ok.mp h
      obtain ⟨-, -, h⟩ := Except.bind_eq_ok.mp h
      split at h
      · cases h
      · next hfree =>
        cases h
        cases hvalid : validatePorts (dnatRuleToAddRequest rule).listen (dnatRuleToAddRequest rule).destPort with
        | error e =>
          rw [hvalid] at hports
          cases hports
        | ok => exact ⟨hdecoded, hfound, (validatePorts_ok hvalid).1, by simpa using hfree⟩

/-- No earlier rule is lost when the new one is added. -/
theorem Migratable.forwards_added (h : Migratable decodeKey reads site key dnatKey rule) :
    (added who now id site rule).forwards =
      forwards site ++ [(site.world.store.addForward (dnatRuleToAddRequest rule) who now id).1] := by
  have hkeep : site.world.store.forwards.filter (fun f =>
      !(f.iface = (dnatRuleToAddRequest rule).iface && f.listen = (dnatRuleToAddRequest rule).listen)) =
        site.world.store.forwards := by
    refine List.filter_eq_self.mpr fun f hf => ?_
    have hfree := h.free
    unfold clobbers at hfree
    have hf' := List.any_eq_false.mp hfree f hf
    rw [Bool.not_eq_true', Bool.eq_false_iff]
    intro hsame
    obtain ⟨hiface, hlisten⟩ := Bool.and_eq_true_iff.mp hsame
    have hiface := of_decide_eq_true hiface
    have hlisten := of_decide_eq_true hlisten
    refine hf' (Bool.and_eq_true_iff.mpr ⟨?_, ?_⟩)
    · rw [hiface]
      simp [dnatRuleToAddRequest]
    · rw [hlisten]
      exact Bool.and_eq_true_iff.mpr ⟨h.valid, h.valid⟩
  unfold added State.addForward
  dsimp only
  rw [hkeep]
  rfl

theorem carries_added : Carries rule (site.world.store.addForward (dnatRuleToAddRequest rule) who now id).1 :=
  ⟨rfl, rfl, rfl, rfl, rfl⟩

/-- An address that a pass has kept for the only rule of its id is that of an entry of the table. -/
theorem inTable_of_map {new : ForwardRule} {ip : BitVec 32} (hmem : new ∈ s.forwards)
    (honly : ∀ f ∈ s.forwards, f.id = new.id → f = new) (hiface : new.iface.isSome)
    (hmap : (resolveAll env s).map new.id = some ip) :
    ∃ rf ∈ (resolveAll env s).resolved, rf.proto = new.proto ∧ new.iface = some rf.iface ∧ rf.listen = new.listen ∧
      rf.destPort = new.destPort ∧ rf.remoteIp = ip := by
  obtain ⟨f, hf, hid, rf, hone, hip⟩ := resolveAll_map hmap
  obtain rfl := honly f hf hid
  obtain ⟨hproto, hlisten, hdest, hresolved⟩ := resolveOne_fields hone
  obtain ⟨i, hi⟩ := Option.isSome_iff_exists.mp hiface
  refine ⟨rf, mem_resolveAll.mpr ⟨f, hf, hone⟩, hproto, ?_, hlisten, hdest, hip⟩
  rw [hi, resolveIface_some hi hresolved]

/-- The ends of a migration. -/
inductive Ended (H : Host κ) (N : NatBackend κ) (decodeKey : String → Option String) (reads : DnatReads) (who : DeviceId)
    (key : String) (now : DateTime) (id : ForwardId) (site : Site (Tabled κ)) :
    Except ApiError ForwardView → Site (Tabled κ) → Prop where
  /-- The checks are not passed. -/
  | rejected {err} (hchecks : migratable decodeKey reads site key = .error err) :
    Ended H N decodeKey reads who key now id site (.error err) site
  /-- The new rule is not saved, or not installed. -/
  | refused {dnatKey rule err site'} (hchecks : migratable decodeKey reads site key = .ok (dnatKey, rule))
    (hadd : (addAnswer H N reads who now id site rule).isOk = false) (hdnat : site'.dnat = site.dnat)
    (hstore : site'.world.store = added who now id site rule) :
    Ended H N decodeKey reads who key now id site (.error err) site'
  /-- The new rule does not resolve, and is taken out again. -/
  | undone {dnatKey rule err site'} (hchecks : migratable decodeKey reads site key = .ok (dnatKey, rule))
    (hadd : (addAnswer H N reads who now id site rule).isOk = true)
    (hlive : (resolveAll reads.pass (added who now id site rule)).map id = none) (hdnat : site'.dnat = site.dnat)
    (hforwards : forwards site' = forwards site) :
    Ended H N decodeKey reads who key now id site (.error err) site'
  /-- The new rule is in effect, and the rule of dnat is removed, or not. -/
  | live {dnatKey rule r site'} (hchecks : migratable decodeKey reads site key = .ok (dnatKey, rule))
    (hadd : (addAnswer H N reads who now id site rule).isOk = true)
    (hlive : ((resolveAll reads.pass (added who now id site rule)).map id).isSome)
    (htaken : TakenOver site site' dnatKey)
    (hconf : site'.dnat = { site.dnat with conf := (removePrefix reads.conf dnatKey site.dnat.conf).2 })
    (hresult : (∃ v, r = .ok v) ↔ ∃ b, (removePrefix reads.conf dnatKey site.dnat.conf).1 = .ok b) :
    Ended H N decodeKey reads who key now id site r site'

theorem Migratable.forwards_removed (h : Migratable decodeKey reads site key dnatKey rule)
    (hid : ∀ f ∈ forwards site, f.id ≠ id) :
    (added who now id site rule).forwards.filter (fun f => f.id ≠ id) = forwards site := by
  have hold : (forwards site).filter (fun f => f.id ≠ id) = forwards site :=
    List.filter_eq_self.mpr fun f hf => decide_eq_true (hid f hf)
  rw [h.forwards_added, List.filter_append, hold]
  simp [State.addForward]

/-- Whatever its calls do, taking the rule out leaves the other rules. -/
theorem wp_undoMigration : wp (undoMigration (tabled H) (tabledNat N) reads id)
    (fun r site' => r = .ok () ∧ site'.dnat = site.dnat ∧
      forwards site' = (forwards site).filter fun f => f.id ≠ id) site := by
  simp only [undoMigration, wp_bind, Site.onWorld, wp_zoom, onStore, wp_update, andThen_ok, wp_ignore]
  have hforwards : (site.world.store.removeForward id).2.forwards = (forwards site).filter fun f => f.id ≠ id := by
    unfold State.removeForward
    dsimp only
    split
    · rfl
    · rfl
  have hsave := (frames_callSave : Frames State.forwards (callSave (tabled H)))
    { site.world with store := (site.world.store.removeForward id).2 }
  have hpass := (frames_applyNow (fun _ _ => rfl) : Frames State.forwards
    (applyNow (tabled H) (tabledNat N) reads.undo))
    (callSave (tabled H) { site.world with store := (site.world.store.removeForward id).2 }).2
  exact ⟨trivial, trivial, hpass.trans (hsave.trans hforwards)⟩

theorem takenOver_of_live {site' : Site (Tabled κ)} (hm : Migratable decodeKey reads site key dnatKey rule)
    (hid : ∀ f ∈ forwards site, f.id ≠ id)
    (hlive : ((resolveAll reads.pass (added who now id site rule)).map id).isSome)
    (hstore : site'.world.store =
      (added who now id site rule).setResolved (resolveAll reads.pass (added who now id site rule)).map)
    (htable : site'.world.host.table = (resolveAll reads.pass (added who now id site rule)).resolved) :
    TakenOver site site' dnatKey := by
  obtain ⟨ip, hip⟩ := Option.isSome_iff_exists.mp hlive
  let new := (site.world.store.addForward (dnatRuleToAddRequest rule) who now id).1
  have hforwards : (added who now id site rule).forwards = forwards site ++ [new] := hm.forwards_added
  -- The id is new, so the address kept for it is that of the new rule.
  have honly : ∀ f ∈ (added who now id site rule).forwards, f.id = new.id → f = new := by
    intro f hf hsame
    rw [hforwards] at hf
    cases List.mem_append.mp hf with
    | inl hold => exact (hid f hold hsame).elim
    | inr hnew => exact List.mem_singleton.mp hnew
  have hmem : new ∈ (added who now id site rule).forwards := by
    rw [hforwards]
    exact List.mem_append_right _ (List.mem_singleton_self new)
  obtain ⟨rf, hrf, hproto, hiface, hlisten, hdest, hremote⟩ := inTable_of_map hmem honly rfl hip
  refine ⟨rule, new, hm.found, ?_, carries_added, rf, ?_, hproto, hiface, hlisten, hdest, ?_⟩
  · unfold forwards
    rw [hstore]
    exact hforwards
  · rw [htable]
    exact hrf
  · rw [hstore, hremote]
    exact hip

/-- The new rule is installed. -/
structure Installed (reads : DnatReads) (who : DeviceId) (now : DateTime) (id : ForwardId) (site : Site (Tabled κ))
    (rule : DnatRule) (w : World (Tabled κ)) : Prop where
  store : w.store = (added who now id site rule).setResolved (resolveAll reads.pass (added who now id site rule)).map
  table : w.host.table = (resolveAll reads.pass (added who now id site rule)).resolved

theorem wp_finishMigration {w : World (Tabled κ)} (hchecks : migratable decodeKey reads site key = .ok (dnatKey, rule))
    (hid : ∀ f ∈ forwards site, f.id ≠ id) (hadd : (addAnswer H N reads who now id site rule).isOk = true)
    (hw : Installed reads who now id site rule w) :
    wp (finishMigration (tabled H) (tabledNat N) reads dnatKey
        (site.world.store.addForward (dnatRuleToAddRequest rule) who now id).1)
      (Ended H N decodeKey reads who key now id site) ⟨w, site.dnat⟩ := by
  have hm := migratable_ok hchecks
  have hresolved : w.store.resolvedIp id = (resolveAll reads.pass (added who now id site rule)).map id := by
    rw [hw.store]
    rfl
  have hnewId : (site.world.store.addForward (dnatRuleToAddRequest rule) who now id).1.id = id := rfl
  simp only [finishMigration, wp_bind, wp_get, andThen_ok, hnewId, hresolved]
  -- A rule whose host does not resolve is not in the table that was installed: it is taken back.
  cases hlive : (resolveAll reads.pass (added who now id site rule)).map id with
  | none =>
    rw [Option.isNone_none, if_pos rfl, wp_bind]
    apply wp_mono wp_undoMigration
    intro r site' h
    obtain ⟨rfl, hdnat, hforwards⟩ := h
    rw [andThen_ok, wp_fail]
    refine .undone hchecks hadd hlive hdnat ?_
    rw [hforwards]
    unfold forwards
    rw [hw.store]
    exact hm.forwards_removed hid
  | some ip =>
    have hsome : ((resolveAll reads.pass (added who now id site rule)).map id).isSome := by rw [hlive]; rfl
    rw [Option.isNone_some, if_neg (by decide), wp_bind, wp_mapErr]
    unfold wp callRemovePrefix
    dsimp only
    -- From here on the new rule is in force, and only the file of dnat is left to change.
    cases hremove : (removePrefix reads.conf dnatKey site.dnat.conf).1 with
    | error e =>
      refine .live hchecks hadd hsome (takenOver_of_live hm hid hsome hw.store hw.table) rfl ?_
      rw [hremove]
      refine ⟨fun h => ?_, fun h => ?_⟩
      · obtain ⟨v, hv⟩ := h
        cases hv
      · obtain ⟨b, hb⟩ := h
        cases hb
    | ok b =>
      refine .live hchecks hadd hsome (takenOver_of_live hm hid hsome hw.store hw.table) rfl ?_
      rw [hremove]
      exact ⟨fun _ => ⟨b, rfl⟩, fun _ => ⟨_, rfl⟩⟩

theorem wp_migrate (hid : ∀ f ∈ forwards site, f.id ≠ id) :
    wp (migrateDnatForward (tabled H) (tabledNat N) decodeKey reads who key now id)
      (Ended H N decodeKey reads who key now id site) site := by
  simp only [migrateDnatForward, wp_bind, wp_get, andThen_ok, wp_lift]
  cases hchecks : migratable decodeKey reads site key with
  | error err => exact .rejected hchecks
  | ok found =>
    obtain ⟨dnatKey, rule⟩ := found
    simp only [andThen_ok, wp_bind, Site.onWorld, wp_zoom, onStore, wp_update]
    unfold wp
    rw [saveStore_tabled]
    -- The new rule is in memory already; neither a refused save nor a refused table takes it out.
    cases hanswer : H.save (added who now id site rule) site.world.host.host with
    | mk r k =>
      unfold added at hanswer
      rw [hanswer]
      cases r with
      | error e =>
        refine .refused hchecks ?_ rfl rfl
        unfold addAnswer added
        rw [hanswer]
        rfl
      | ok =>
        have hadd : addAnswer H N reads who now id site rule =
            (installAnswer N (resolveAll reads.pass (added who now id site rule)).resolved k).1 := by
          unfold addAnswer added
          rw [hanswer]
        simp only [Except.mapError, andThen_ok, wp_bind, wp_zoom]
        apply wp_mono wp_applyForwards
        intro r₁ w₁ h₁
        obtain ⟨r', rfl, hpass⟩ := h₁
        unfold Passes at hpass
        dsimp only at hpass
        unfold added at hadd
        cases hinstall : (installAnswer N (resolveAll reads.pass (added who now id site rule)).resolved k).1 with
        | error e =>
          unfold added at hinstall
          rw [hinstall] at hpass hadd
          obtain ⟨rfl, hstore, -⟩ := hpass
          refine .refused hchecks ?_ rfl hstore
          rw [hadd]
          rfl
        | ok =>
          unfold added at hinstall
          rw [hinstall] at hpass hadd
          obtain ⟨rfl, hstore, htable⟩ := hpass
          exact wp_finishMigration hchecks hid (by rw [hadd]; rfl) ⟨hstore, htable⟩

end Ends

/-! ## When a migration is all or nothing -/

section AllOrNothing

variable {κ : Type} {H : Host κ} {N : NatBackend κ} {decodeKey : String → Option String} {reads : DnatReads}
variable {who : DeviceId} {key dnatKey : String} {now : DateTime} {id : ForwardId} {site site' : Site (Tabled κ)}
variable {rule : DnatRule} {r : Except ApiError ForwardView}

/-- The new rule in the store without an address of its own is in the way. -/
theorem not_allOrNothing_of_refused {err : ApiError} (hm : Migratable decodeKey reads site key dnatKey rule)
    (hnew : site.world.store.resolved id = none) (hstore : site'.world.store = added who now id site rule) :
    ¬AllOrNothing decodeKey key site (.error err) site' := by
  have hforwards : forwards site' =
      forwards site ++ [(site.world.store.addForward (dnatRuleToAddRequest rule) who now id).1] := by
    unfold forwards
    rw [hstore]
    exact hm.forwards_added
  rintro ⟨-, hsame | ⟨k, -, rule', new, -, hforwards', -, rf, -, -, -, -, -, hresolved⟩⟩
  · rw [hforwards] at hsame
    have hlen := congrArg List.length hsame
    simp at hlen
  · rw [hforwards] at hforwards'
    obtain rfl := List.singleton_inj.mp (List.append_cancel_left hforwards')
    rw [hstore] at hresolved
    have hnone : (added who now id site rule).resolvedIp id = none := hnew
    exact Option.some_ne_none _ (hresolved.symm.trans hnone)

/-- With the new rule in effect, all depends on reading the file of dnat. -/
theorem allOrNothing_live_iff (hm : Migratable decodeKey reads site key dnatKey rule)
    (htaken : TakenOver site site' dnatKey)
    (hconf : site'.dnat = { site.dnat with conf := (removePrefix reads.conf dnatKey site.dnat.conf).2 })
    (hresult : (∃ v, r = .ok v) ↔ ∃ b, (removePrefix reads.conf dnatKey site.dnat.conf).1 = .ok b) :
    AllOrNothing decodeKey key site r site' ↔ ¬(reads.conf.lock.isOk = true ∧ reads.conf.read.isOk = false) := by
  obtain ⟨hmem, hkey⟩ := DnatAdapter.findRuleByPrefix_eq_some hm.found
  -- A lock that fails is an error with the file untouched, a read that fails counts as an empty file.
  cases hlock : reads.conf.lock with
  | error e =>
    have hremove : removePrefix reads.conf dnatKey site.dnat.conf = (.error e, site.dnat.conf) := by
      unfold removePrefix
      rw [hlock]
    cases r with
    | ok v =>
      obtain ⟨b, hb⟩ := hresult.mp ⟨v, rfl⟩
      rw [hremove] at hb
      cases hb
    | error err =>
      rw [hremove] at hconf
      exact ⟨fun _ h => Bool.false_ne_true h.1, fun _ => ⟨by rw [hconf], .inr ⟨dnatKey, hm.decoded, htaken⟩⟩⟩
  | ok =>
    cases hread : reads.conf.read with
    | error e =>
      have hremove : removePrefix reads.conf dnatKey site.dnat.conf = (.ok false, site.dnat.conf) :=
        removePrefix_unreadable hlock hread
      obtain ⟨v, rfl⟩ := hresult.mpr ⟨false, by rw [hremove]⟩
      rw [hremove] at hconf
      refine ⟨fun h => ?_, fun h => (h ⟨rfl, rfl⟩).elim⟩
      obtain ⟨k, hdecoded, hrules, -⟩ := h
      obtain rfl : dnatKey = k := Option.some.inj (hm.decoded.symm.trans hdecoded)
      have hsame : site'.dnat.rules = site.dnat.rules := by rw [hconf]
      rw [← hsame, hrules] at hmem
      simp [hkey] at hmem
    | ok =>
      refine ⟨fun _ h => Bool.false_ne_true h.2.symm, fun _ => ?_⟩
      cases hremove : (removePrefix reads.conf dnatKey site.dnat.conf).1 with
      | error e =>
        cases r with
        | ok v =>
          obtain ⟨b, hb⟩ := hresult.mp ⟨v, rfl⟩
          rw [hremove] at hb
          cases hb
        | error err =>
          rw [removePrefix_error hremove] at hconf
          exact ⟨by rw [hconf], .inr ⟨dnatKey, hm.decoded, htaken⟩⟩
      | ok b =>
        obtain ⟨v, rfl⟩ := hresult.mpr ⟨b, hremove⟩
        rw [removePrefix_ok hmem hkey hread hremove] at hconf
        refine ⟨dnatKey, hm.decoded, ?_, htaken⟩
        unfold DnatAdapter.rules
        rw [hconf]
        exact Dnat.parseConf_removeRuleLines

end AllOrNothing

/-- A migration is done as a whole or leaves dnat its rule and no dead one behind, unless the new
rule cannot be saved or installed, or the file of dnat cannot be read in the end. -/
theorem all_or_nothing_iff {κ : Type} (H : Host κ) (N : NatBackend κ) (decodeKey : String → Option String)
    (reads : DnatReads) (who : DeviceId) (key : String) (now : DateTime) (id : ForwardId) (site : Site (Tabled κ))
    (hid : ∀ f ∈ forwards site, f.id ≠ id) (hnew : site.world.store.resolved id = none) :
    wp (migrateDnatForward (tabled H) (tabledNat N) decodeKey reads who key now id) (AllOrNothing decodeKey key site) site ↔
      ¬AddRefused H N decodeKey reads who key now id site ∧ ¬FileUnread H N decodeKey reads who key now id site := by
  refine wp_iff (wp_migrate hid) fun r site' h => ?_
  cases h with
  | rejected hchecks =>
    refine ⟨fun _ => ⟨?_, ?_⟩, fun _ => ⟨rfl, .inl rfl⟩⟩
    · rintro ⟨k, rule, hok, -⟩
      cases hchecks.symm.trans hok
    · rintro ⟨k, rule, hok, -⟩
      cases hchecks.symm.trans hok
  | refused hchecks hadd hdnat hstore =>
    exact ⟨fun h => (not_allOrNothing_of_refused (migratable_ok hchecks) hnew hstore h).elim,
      fun h => (h.1 ⟨_, _, hchecks, hadd⟩).elim⟩
  -- The undone migration has put everything back, whatever the file of dnat says.
  | undone hchecks hadd hlive hdnat hforwards =>
    refine ⟨fun _ => ⟨?_, ?_⟩, fun _ => ⟨by rw [hdnat], .inl hforwards⟩⟩
    · rintro ⟨k, rule, hok, hrefused⟩
      cases hchecks.symm.trans hok
      rw [hadd] at hrefused
      cases hrefused
    · rintro ⟨k, rule, hok, -, hsome, -⟩
      cases hchecks.symm.trans hok
      rw [hlive] at hsome
      cases hsome
  | live hchecks hadd hlive htaken hconf hresult =>
    rw [allOrNothing_live_iff (migratable_ok hchecks) htaken hconf hresult]
    constructor
    · intro hread
      refine ⟨?_, ?_⟩
      · rintro ⟨k, rule, hok, hrefused⟩
        cases hchecks.symm.trans hok
        rw [hadd] at hrefused
        cases hrefused
      · rintro ⟨k, rule, -, -, -, hboth⟩
        exact hread hboth
    · intro h hboth
      exact h.2 ⟨_, _, hchecks, hadd, hlive, hboth⟩

/-! ### A migration that goes through, and some that do not -/

/-- A host that answers each save and each call as its script says. -/
def answerHost : Host (List Bool) where
  apply _ _ := answered
  add _ := answered
  remove _ := answered
  list answers := (.ok [], answers)
  save _ := answered

/-- Two rules of dnat, and no rule of the agent. -/
def dnatSite (answers : List Bool) : Site (Tabled (List Bool)) where
  world := ⟨.default, ⟨false, false⟩, ⟨answers, []⟩, AgentConfig.default.rulesetWith State.default.rulesetFlags⟩
  dnat := ⟨true, "443>eth0>192.0.2.1:8443>auto\n53>eth0>192.0.2.2:53>auto\n", []⟩

/-- The base64url form of one key. -/
def httpsKey (key : String) : Option String := if key = "NDQzPmV0aDA-" then some "443>eth0>" else none

def plainReads (read : Except String Unit) : DnatReads where
  lookup := .ok ()
  defaultIface _ := some "eth0"
  pass _ := eth0
  undo _ := eth0
  conf := ⟨.ok (), read, .ok ()⟩

def httpsRule : DnatRule := ⟨.single 443, "eth0", "192.0.2.1", .single 8443, .auto⟩

theorem all_or_nothing_plain :
    wp (migrateDnatForward (tabled answerHost) (tabledNat answerNat) httpsKey (plainReads (.ok ())) ⟨1⟩ "NDQzPmV0aDA-" 0
        ⟨1⟩)
      (AllOrNothing httpsKey "NDQzPmV0aDA-" (dnatSite [])) (dnatSite []) := by
  have hchecks : migratable httpsKey (plainReads (.ok ())) (dnatSite []) "NDQzPmV0aDA-" = .ok ("443>eth0>", httpsRule) := by
    decide +kernel
  refine (all_or_nothing_iff answerHost answerNat httpsKey (plainReads (.ok ())) ⟨1⟩ "NDQzPmV0aDA-" 0 ⟨1⟩ (dnatSite [])
    (by decide) rfl).mpr ⟨?_, ?_⟩
  · rintro ⟨k, rule, hok, hrefused⟩
    cases hchecks.symm.trans hok
    revert hrefused
    decide +kernel
  · rintro ⟨k, rule, -, -, -, -, hread⟩
    cases hread

/-- The migration of the rule for port 443. -/
def migrateHttps (read : Except String Unit) (id : ForwardId) : Act (Site (Tabled (List Bool))) ApiError ForwardView :=
  migrateDnatForward (tabled answerHost) (tabledNat answerNat) httpsKey (plainReads read) ⟨1⟩ "NDQzPmV0aDA-" 0 id

/-- The installation fails: the new rule is left in the store, not in the table, and another attempt
is refused because of it. And a file that cannot be read counts as one without the rule: the
migration succeeds, with the rule still in the file. -/
theorem migration_leaves_dead_rule :
    ¬wp (migrateHttps (.ok ()) ⟨1⟩)
        (AllOrNothing httpsKey "NDQzPmV0aDA-" (dnatSite [true, false])) (dnatSite [true, false]) ∧
      (migrateHttps (.ok ()) ⟨2⟩ (migrateHttps (.ok ()) ⟨1⟩ (dnatSite [true, false])).2).1 = .error migrationClash ∧
      ¬wp (migrateHttps (.error "Input/output error") ⟨1⟩)
        (AllOrNothing httpsKey "NDQzPmV0aDA-" (dnatSite [])) (dnatSite []) := by
  -- Both attempts against the installation that fails, run once.
  have hfails : ((migrateHttps (.ok ()) ⟨1⟩ (dnatSite [true, false])).1 = .error (nftFailure "refused") ∧
      forwards (migrateHttps (.ok ()) ⟨1⟩ (dnatSite [true, false])).2 ≠ [] ∧
      (migrateHttps (.ok ()) ⟨1⟩ (dnatSite [true, false])).2.world.host.table = []) ∧
      (migrateHttps (.ok ()) ⟨2⟩ (migrateHttps (.ok ()) ⟨1⟩ (dnatSite [true, false])).2).1 = .error migrationClash := by
    decide +kernel
  obtain ⟨⟨hfailed, hleft, htable⟩, hagain⟩ := hfails
  refine ⟨fun h => ?_, hagain, fun h => ?_⟩
  · unfold wp at h
    rw [hfailed] at h
    obtain ⟨-, hsame | ⟨k, -, rule, new, -, -, -, rf, hrf, -⟩⟩ := h
    · exact hleft hsame
    · rw [htable] at hrf
      cases hrf
  · have hsucceeds : (migrateHttps (.error "Input/output error") ⟨1⟩ (dnatSite [])).1.isOk = true ∧
        (migrateHttps (.error "Input/output error") ⟨1⟩ (dnatSite [])).2.dnat.rules.length = 2 := by
      decide +kernel
    obtain ⟨hdone, hrules⟩ := hsucceeds
    unfold wp at h
    cases hresult : (migrateHttps (.error "Input/output error") ⟨1⟩ (dnatSite [])).1 with
    | error e =>
      rw [hresult] at hdone
      cases hdone
    | ok v =>
      rw [hresult] at h
      obtain ⟨k, hk, hleft, -⟩ := h
      cases hk
      rw [hleft] at hrules
      revert hrules
      decide +kernel

end Ipgate.Migration
