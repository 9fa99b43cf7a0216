-- SUMMARY: One forward for each interface and listen range: which requests keep it so, over any sequence of them.
import Ipgate.Agent.Api.Migration
import Ipgate.Lib.Lts

/-!
# Keys of forwards

A packet is sent on by the first rule for its interface and port, so two forwards with one
interface and one listen range are one too many. The interface is the one a forward names,
and otherwise that of the default route. A new forward replaces those that name the same
interface, while a changed one and one taken over from dnat are refused where another has
ports of the same interface.
-/

namespace Ipgate.Keys

open Net Act

/-! ## Keys -/

/-- The interface of a forward, where `d` is that of the default route. -/
def effIface (d iface : Option String) : Option String := iface.orElse fun _ => d

/-- No two forwards have the same interface and listen range. -/
def KeysApart (d : Option String) (rules : List ForwardRule) : Prop :=
  rules.Pairwise fun f g => ¬(effIface d f.iface = effIface d g.iface ∧ f.listen = g.listen)

/-- No rule of the table is shadowed by another with its key. -/
def Unshadowed (table : List ResolvedForward) : Prop :=
  table.Pairwise fun f g => ¬(f.iface = g.iface ∧ f.listen = g.listen)

instance (d : Option String) (rules : List ForwardRule) : Decidable (KeysApart d rules) :=
  inferInstanceAs (Decidable (List.Pairwise _ rules))

instance (table : List ResolvedForward) : Decidable (Unshadowed table) :=
  inferInstanceAs (Decidable (List.Pairwise _ table))

/-- In the store and in the table there is one forward for each key. -/
structure OnePerKey {κ : Type} (d : Option String) (w : World (Tabled κ)) : Prop where
  stored : KeysApart d w.store.forwards
  installed : Unshadowed w.host.table

/-- A forward has the key of the request, and names the interface where the request does not, or
the other way round. -/
def Doubles (d : Option String) (s : State) (req : AddForwardRequest) : Prop :=
  ∃ f ∈ s.forwards, effIface d f.iface = effIface d req.iface ∧ f.listen = req.listen ∧ f.iface ≠ req.iface

instance (d : Option String) (s : State) (req : AddForwardRequest) : Decidable (Doubles d s req) :=
  inferInstanceAs (Decidable (∃ f ∈ s.forwards, _))

/-! ## Requests -/

/-- A request for a forward, or a change that dnat makes to its own files. -/
inductive Event where
  | add (who : DeviceId) (req : AddForwardRequest) (now : DateTime) (id : ForwardId) (conf : Except String Unit)
    (pass : ForwardRule → HostEnv)
  | update (id : ForwardId) (req : AddForwardRequest) (conf : Except String Unit) (pass : ForwardRule → HostEnv)
  | remove (id : ForwardId) (pass : ForwardRule → HostEnv)
  | migrate (who : DeviceId) (key : String) (now : DateTime) (id : ForwardId) (reads : DnatReads)
  | dnat (files : DnatAdapter)

/-- The id that the request draws for its rule. -/
def Event.drawn : Event → Option ForwardId
  | .add _ _ _ id _ _ => some id
  | .migrate _ _ _ id _ => some id
  | .update _ _ _ _ | .remove _ _ | .dnat _ => none

/-- What a pass finds while the default route stays. -/
def atRoute (d : Option String) (pass : ForwardRule → HostEnv) : ForwardRule → HostEnv :=
  fun rule => { pass rule with defaultRouteIface := d }

def readsAt (d : Option String) (conf : Except String Unit) (pass : ForwardRule → HostEnv) : ForwardReads :=
  ⟨d, conf, d, atRoute d pass⟩

def dnatReadsAt (d : Option String) (reads : DnatReads) : DnatReads where
  lookup := reads.lookup
  defaultIface _ := d
  pass := atRoute d reads.pass
  undo := atRoute d reads.undo
  conf := reads.conf

section System

variable {κ : Type} (H : Host κ) (N : NatBackend κ) (decodeKey : String → Option String) (d : Option String)

/-- How the agent answers, and what it leaves. -/
def answer (site : Site (Tabled κ)) : Event → Except ApiError Unit × Site (Tabled κ)
  | .add who req now id conf pass =>
    Act.discard (Site.onWorld
      (addForward (tabled H) (tabledNat N) site.dnat (readsAt d conf pass) who req now id)) site
  | .update id req conf pass =>
    Act.discard (Site.onWorld (updateForward (tabled H) (tabledNat N) site.dnat (readsAt d conf pass) id req)) site
  | .remove id pass => Site.onWorld (removeForward (tabled H) (tabledNat N) (atRoute d pass) id) site
  | .migrate who key now id reads =>
    Act.discard (migrateDnatForward (tabled H) (tabledNat N) decodeKey (dnatReadsAt d reads) who key now id) site
  | .dnat files => (.ok (), { site with dnat := files })

/-- One event. A request may fail and leaves what it has done then. An id that is drawn is that
of no rule. -/
def step (site : Site (Tabled κ)) (e : Event) : Option (Site (Tabled κ)) :=
  if ∀ id ∈ e.drawn, ∀ f ∈ site.world.store.forwards, f.id ≠ id then some (answer H N decodeKey d site e).2
  else none

/-- The store is empty, and so is the table. -/
def start (live : Live) (host : κ) (accepted : RulesetConfig) (files : DnatAdapter) : Site (Tabled κ) where
  world := ⟨.default, live, ⟨host, []⟩, accepted⟩
  dnat := files

/-- The request passes the checks and adds a second forward for a key. -/
def DoublesKey (site : Site (Tabled κ)) : Event → Prop
  | .add _ req _ _ conf _ => (checkForwardRequest site.dnat conf d req).isOk = true ∧ Doubles d site.world.store req
  | .update _ _ _ _ | .remove _ _ | .migrate _ _ _ _ _ | .dnat _ => False

instance (site : Site (Tabled κ)) : (e : Event) → Decidable (DoublesKey d site e)
  | .add _ _ _ _ _ _ => inferInstanceAs (Decidable (_ ∧ _))
  | .update _ _ _ _ | .remove _ _ | .migrate _ _ _ _ _ | .dnat _ => .isFalse not_false

end System

/-! ## What a change of the rules keeps -/

section Rules

variable {d : Option String} {s : State} {req : AddForwardRequest} {who : DeviceId} {now : DateTime} {id : ForwardId}
variable {rules : List ForwardRule} {new old : ForwardRule} {pass : ForwardRule → HostEnv}

/-- The table of rules with different keys has different keys. -/
theorem unshadowed_resolveAll (h : KeysApart d s.forwards) : Unshadowed (resolveAll (atRoute d pass) s).resolved := by
  have hiface : ∀ (f : ForwardRule) (prev : Option (BitVec 32)) (rf : ResolvedForward),
      resolveOne (atRoute d pass f) f prev = .ok rf → effIface d f.iface = some rf.iface ∧ rf.listen = f.listen := by
    intro f prev rf hone
    obtain ⟨-, hlisten, -, hresolved⟩ := resolveOne_fields hone
    refine ⟨?_, hlisten⟩
    unfold effIface
    cases hf : f.iface with
    | some i => rw [resolveIface_some hf hresolved]; rfl
    | none =>
      have heq := resolveIface_eq_ok.mp hresolved
      unfold ifaceOf at heq
      rw [hf] at heq
      exact heq
  rw [resolveAll_resolved]
  refine List.pairwise_filterMap.mpr (h.imp ?_)
  intro f g hapart rf hrf rg hrg hsame
  obtain ⟨hiface_f, hlisten_f⟩ := hiface f _ rf (Except.toOption_eq_some.mp hrf)
  obtain ⟨hiface_g, hlisten_g⟩ := hiface g _ rg (Except.toOption_eq_some.mp hrg)
  refine hapart ⟨?_, ?_⟩
  · rw [hiface_f, hiface_g, hsame.1]
  · rw [← hlisten_f, ← hlisten_g, hsame.2]

/-- Adding a forward keeps keys apart, unless it doubles one. -/
theorem keysApart_add_iff (h : KeysApart d s.forwards) :
    KeysApart d (s.addForward req who now id).2.forwards ↔ ¬Doubles d s req := by
  unfold KeysApart State.addForward Doubles
  rw [List.pairwise_append]
  constructor
  · intro happ hdoubles
    obtain ⟨f, hf, hiface, hlisten, hne⟩ := hdoubles
    refine happ.2.2 f (List.mem_filter.mpr ⟨hf, ?_⟩) _ (List.mem_singleton_self _) ⟨hiface, hlisten⟩
    simp [hne]
  · intro hnot
    refine ⟨h.sublist List.filter_sublist, List.pairwise_singleton _ _, ?_⟩
    intro f hf g hg hsame
    obtain rfl := List.mem_singleton.mp hg
    obtain ⟨hf, hkept⟩ := List.mem_filter.mp hf
    refine hnot ⟨f, hf, hsame.1, hsame.2, fun heq => ?_⟩
    have hlisten : f.listen = req.listen := hsame.2
    simp [heq, hlisten] at hkept

theorem keysApart_remove (h : KeysApart d s.forwards) : KeysApart d (s.removeForward id).2.forwards := by
  have hkept : KeysApart d (s.forwards.filter fun f => f.id ≠ id) := h.sublist List.filter_sublist
  unfold State.removeForward
  dsimp only
  split
  · exact hkept
  · exact hkept

/-- A rule whose key is that of no other may take the place of the one with its id. -/
theorem keysApart_replace (hids : State.IdsApart rules) (h : KeysApart d rules)
    (hnew : ∀ f ∈ rules, f.id ≠ id → ¬(effIface d f.iface = effIface d new.iface ∧ f.listen = new.listen)) :
    KeysApart d (State.replaceForward id new rules) := by
  induction rules with
  | nil => exact List.Pairwise.nil
  | cons f fs ih =>
    unfold State.IdsApart at hids
    rw [List.map_cons, List.nodup_cons] at hids
    obtain ⟨hhead, htail⟩ := hids
    obtain ⟨hf, hfs⟩ := List.pairwise_cons.mp h
    unfold State.replaceForward
    split
    · next hid =>
      refine List.pairwise_cons.mpr ⟨fun g hg hsame => ?_, hfs⟩
      have hother : g.id ≠ id := fun heq => hhead (List.mem_map.mpr ⟨g, hg, heq.trans hid.symm⟩)
      exact hnew g (List.mem_cons_of_mem f hg) hother ⟨hsame.1.symm, hsame.2.symm⟩
    · next hid =>
      refine List.pairwise_cons.mpr ⟨fun g hg => ?_, ih htail hfs fun g hg => hnew g (List.mem_cons_of_mem f hg)⟩
      cases State.mem_replaceForward hg with
      | inl hold => exact hf g hold
      | inr heq =>
        subst heq
        exact hnew f (List.mem_cons_self ..) hid

/-- A range of ports overlaps itself. -/
theorem overlaps_self {r : PortRange} (h : r.isValid = true) : r.overlaps r = true :=
  Bool.and_eq_true_iff.mpr ⟨h, h⟩

/-- A change that overlaps no other rule keeps keys apart. -/
theorem keysApart_change (hids : State.IdsApart s.forwards) (h : KeysApart d s.forwards)
    (hvalid : req.listen.isValid = true) (hclash : Forwarding.overlapsOther s d id req = false) :
    KeysApart d (changeForward id req s).2.forwards := by
  unfold changeForward State.updateForward
  cases hfind : s.findForward id with
  | none => exact h
  | some old =>
    refine keysApart_replace hids h fun f hf hid hsame => ?_
    have hno := List.any_eq_false.mp hclash f hf
    have hiface : effIface d f.iface = effIface d req.iface := hsame.1
    have hlisten : f.listen = req.listen := hsame.2
    refine hno ?_
    rw [hlisten, overlaps_self hvalid, Bool.and_true]
    exact Bool.and_eq_true_iff.mpr ⟨decide_eq_true hid, decide_eq_true hiface⟩

/-- A rule of dnat that no forward overlaps does not double a key. -/
theorem not_doubles_of_free {rule : DnatRule} (hvalid : rule.listen.isValid = true)
    (hfree : clobbers s (fun _ => d) rule = false) : ¬Doubles d s (dnatRuleToAddRequest rule) := by
  intro hdoubles
  obtain ⟨f, hf, hiface, hlisten, -⟩ := hdoubles
  have hlisten : f.listen = rule.listen := hlisten
  refine List.any_eq_false.mp hfree f hf ?_
  rw [hlisten, overlaps_self hvalid, Bool.and_true]
  exact decide_eq_true hiface

/-- A request that passes the checks has ports in order. -/
theorem checkForwardRequest_valid {a : DnatAdapter} {conf : Except String Unit}
    (h : checkForwardRequest a conf d req = .ok ()) :
    req.listen.isValid = true := by
  obtain ⟨_, hports, -⟩ := Except.bind_eq_ok.mp h
  cases hvalid : validatePorts req.listen req.destPort with
  | error e =>
    rw [hvalid] at hports
    cases hports
  | ok => exact (validatePorts_ok hvalid).1

end Rules

/-! ## What a request keeps -/

section Requests

variable {κ : Type} {H : Host κ} {N : NatBackend κ} {d : Option String} {w : World (Tabled κ)}
variable {who : DeviceId} {req : AddForwardRequest} {now : DateTime} {id : ForwardId} {pass : ForwardRule → HostEnv}

/-- Ids and keys are apart. -/
structure Good (d : Option String) (w : World (Tabled κ)) : Prop extends OnePerKey d w where
  ids : State.IdsApart w.store.forwards

theorem Good.of_eq {w' : World (Tabled κ)} (h : Good d w) (hforwards : w'.store.forwards = w.store.forwards)
    (htable : Unshadowed w'.host.table) : Good d w' := by
  refine ⟨⟨?_, htable⟩, ?_⟩
  · rw [hforwards]
    exact h.stored
  · rw [hforwards]
    exact h.ids

theorem good_saveStore : Preserves (Good d) (saveStore (tabled H)) := fun _ h => h.of_eq rfl h.installed

/-- A pass, accepted or not. -/
theorem Good.of_passes {r : Except String Unit} {w' : World (Tabled κ)} (h : Good d w)
    (hpass : Passes N (atRoute d pass) w r w') : Good d w' := by
  unfold Passes at hpass
  dsimp only at hpass
  cases hinstall : (installAnswer N (resolveAll (atRoute d pass) w.store).resolved w.host.host).1 with
  | ok =>
    rw [hinstall] at hpass
    obtain ⟨-, hstore, htable⟩ := hpass
    refine h.of_eq (by rw [hstore]; rfl) ?_
    rw [htable]
    exact unshadowed_resolveAll h.stored
  | error e =>
    rw [hinstall] at hpass
    obtain ⟨-, hstore, htable⟩ := hpass
    refine h.of_eq (congrArg State.forwards hstore) ?_
    rw [htable]
    exact h.installed

theorem good_applyNow : Preserves (Good d) (applyNow (tabled H) (tabledNat N) (atRoute d pass)) := by
  intro w h
  have hgood : wp (applyNow (tabled H) (tabledNat N) (atRoute d pass)) (fun _ w' => Good d w') w := by
    apply wp_mono wp_applyNow_tabled
    intro r w' hpass
    exact h.of_passes hpass
  exact hgood

theorem good_applyForwards : Preserves (Good d) (applyForwards (tabled H) (tabledNat N) (atRoute d pass)) :=
  preserves_bind (preserves_mapErr good_applyNow) fun _ => preserves_pure

theorem good_view {rule : ForwardRule} :
    Preserves (Good d) (viewForward rule : Act (World (Tabled κ)) ApiError ForwardView) :=
  preserves_bind preserves_get fun _ => preserves_pure

/-- Save the rules, install them and show one. -/
def land (H : Host κ) (N : NatBackend κ) (env : ForwardRule → HostEnv) (rule : ForwardRule) :
    Act (World (Tabled κ)) ApiError ForwardView :=
  saveStore (tabled H) >>= fun _ => applyForwards (tabled H) (tabledNat N) env >>= fun _ => viewForward rule

theorem good_land {rule : ForwardRule} : Preserves (Good d) (land H N (atRoute d pass) rule) :=
  preserves_bind good_saveStore fun _ => preserves_bind good_applyForwards fun _ => good_view

theorem frames_land {rule : ForwardRule} : Frames State.forwards (land H N pass rule) :=
  keeps_bind frames_saveStore fun _ =>
    keeps_bind (keeps_bind (keeps_mapErr (frames_applyNow fun _ _ => rfl)) fun _ => keeps_pure) fun _ =>
      keeps_bind keeps_get fun _ => keeps_pure

/-- Whether keys are apart afterwards is for the rules of the store to say. -/
theorem good_land_iff {rule : ForwardRule} (hids : State.IdsApart w.store.forwards) (htable : Unshadowed w.host.table) :
    wp (land H N (atRoute d pass) rule) (fun _ w' => State.IdsApart w'.store.forwards ∧
      (OnePerKey d w' ↔ KeysApart d w.store.forwards)) w := by
  have hforwards : (land H N (atRoute d pass) rule w).2.store.forwards = w.store.forwards := frames_land w
  refine ⟨?_, fun hone => ?_, fun hkeys => ?_⟩
  · rw [hforwards]
    exact hids
  · rw [← hforwards]
    exact hone.stored
  · exact (good_land w ⟨⟨hkeys, htable⟩, hids⟩).toOnePerKey

/-- A new forward has an id of its own, and is fine unless it passes the checks and doubles a key. -/
theorem good_addForward_iff {a : DnatAdapter} {conf : Except String Unit}
    (hfresh : ∀ f ∈ w.store.forwards, f.id ≠ id) (h : Good d w) :
    wp (addForward (tabled H) (tabledNat N) a (readsAt d conf pass) who req now id)
      (fun _ w' => State.IdsApart w'.store.forwards ∧ (OnePerKey d w' ↔
        ¬((checkForwardRequest a conf d req).isOk = true ∧ Doubles d w.store req))) w := by
  unfold addForward onStore
  rw [wp_bind, wp_lift]
  show andThen _ _ (checkForwardRequest a conf d req) w
  cases checkForwardRequest a conf d req with
  | error e => exact ⟨h.ids, fun _ hdoubles => Bool.false_ne_true hdoubles.1, fun _ => h.toOnePerKey⟩
  | ok =>
    rw [andThen_ok, wp_bind, wp_update, andThen_ok]
    have hland : wp (land H N (atRoute d pass) (w.store.addForward req who now id).1)
        (fun _ w' => State.IdsApart w'.store.forwards ∧
          (OnePerKey d w' ↔ KeysApart d (w.store.addForward req who now id).2.forwards))
        { w with store := (w.store.addForward req who now id).2 } := good_land_iff (h.ids.add hfresh) h.installed
    refine wp_mono hland fun r w' hw' => ⟨hw'.1, ?_⟩
    rw [hw'.2, keysApart_add_iff h.stored]
    exact not_congr ⟨fun hdoubles => ⟨rfl, hdoubles⟩, And.right⟩

/-- A change is checked against the other forwards. -/
theorem good_updateForward {a : DnatAdapter} {conf : Except String Unit} (h : Good d w) :
    wp (updateForward (tabled H) (tabledNat N) a (readsAt d conf pass) id req) (fun _ w' => Good d w') w := by
  unfold updateForward onStore
  rw [wp_bind, wp_lift]
  show andThen _ _ (checkForwardRequest a conf d req) w
  cases hcheck : checkForwardRequest a conf d req with
  | error e => exact h
  | ok =>
    simp only [andThen_ok, wp_bind, wp_get, rejectIf, wp_onlyIf, wp_update]
    refine ⟨fun _ => h, fun hclash => ?_⟩
    have hkeys := keysApart_change h.ids h.stored (checkForwardRequest_valid hcheck) hclash
    have hids : State.IdsApart (changeForward id req w.store).2.forwards := idsApart_changeForward h.ids
    cases hchange : (changeForward id req w.store).1 with
    | none => exact ⟨⟨hkeys, h.installed⟩, hids⟩
    | some rule =>
      have hland : wp (land H N (atRoute d pass) rule) (fun _ w' => Good d w')
        { w with store := (changeForward id req w.store).2 } := good_land _ ⟨⟨hkeys, h.installed⟩, hids⟩
      exact hland

theorem good_removeForward : Preserves (Good d) (removeForward (tabled H) (tabledNat N) (atRoute d pass) id) := by
  refine preserves_bind (fun w h => ⟨⟨keysApart_remove h.stored, h.installed⟩, h.ids.remove⟩) fun removed => ?_
  exact preserves_bind (preserves_onlyIf preserves_fail) fun _ => preserves_bind good_saveStore fun _ => good_applyForwards

end Requests

/-! ## Migrations -/

section Migrations

variable {κ : Type} {H : Host κ} {N : NatBackend κ} {decodeKey : String → Option String} {d : Option String}
variable {site : Site (Tabled κ)} {who : DeviceId} {key dnatKey : String} {now : DateTime} {id : ForwardId}
variable {reads : DnatReads} {rule : ForwardRule}

def SiteGood (d : Option String) (site : Site (Tabled κ)) : Prop := Good d site.world

theorem siteGood_onWorld {ε α : Type} {m : Act (World (Tabled κ)) ε α} (h : Preserves (Good d) m) :
    Preserves (SiteGood d) (Site.onWorld m) := fun site hsite => h site.world hsite

theorem siteGood_undoMigration :
    Preserves (SiteGood d) (undoMigration (tabled H) (tabledNat N) (dnatReadsAt d reads) id) := by
  refine preserves_bind (siteGood_onWorld fun w h => ?_) fun _ => ?_
  · exact ⟨⟨keysApart_remove h.stored, h.installed⟩, h.ids.remove⟩
  · have hsave : Preserves (Good d) (callSave (tabled H)) := fun _ h => h.of_eq rfl h.installed
    exact preserves_bind (siteGood_onWorld (preserves_ignore hsave)) fun _ =>
      siteGood_onWorld (preserves_ignore good_applyNow)

theorem siteGood_finishMigration :
    Preserves (SiteGood d) (finishMigration (tabled H) (tabledNat N) (dnatReadsAt d reads) dnatKey rule) := by
  refine preserves_bind preserves_get fun site => ?_
  split
  · exact preserves_bind siteGood_undoMigration fun _ => preserves_fail
  · have hremove : Preserves (SiteGood d)
        (callRemovePrefix reads.conf dnatKey : Act (Site (Tabled κ)) String Bool) := fun _ h => h
    exact preserves_bind (preserves_mapErr hremove) fun _ => siteGood_onWorld good_view

/-- A migration does not double a key: it is refused where a forward has ports of its rule. -/
theorem good_migrate (hfresh : ∀ f ∈ site.world.store.forwards, f.id ≠ id) (h : Good d site.world) :
    wp (migrateDnatForward (tabled H) (tabledNat N) decodeKey (dnatReadsAt d reads) who key now id)
      (fun _ site' => Good d site'.world) site := by
  unfold migrateDnatForward
  rw [wp_bind, wp_get, andThen_ok, wp_bind, wp_lift]
  cases hchecks : migratable decodeKey (dnatReadsAt d reads) site key with
  | error e => exact h
  | ok found =>
    obtain ⟨dnatKey, rule⟩ := found
    have hm := Migration.migratable_ok hchecks
    have hkeys : KeysApart d (site.world.store.addForward (dnatRuleToAddRequest rule) who now id).2.forwards :=
      (keysApart_add_iff h.stored).mpr (not_doubles_of_free hm.valid hm.free)
    have hrest (new : ForwardRule) : Preserves (SiteGood d) (Site.onWorld (saveStore (tabled H)) >>= fun _ =>
        Site.onWorld (applyForwards (tabled H) (tabledNat N) (atRoute d reads.pass)) >>= fun _ =>
          finishMigration (tabled H) (tabledNat N) (dnatReadsAt d reads) dnatKey new) :=
      preserves_bind (siteGood_onWorld good_saveStore) fun _ =>
        preserves_bind (siteGood_onWorld good_applyForwards) fun _ => siteGood_finishMigration
    dsimp only
    rw [andThen_ok, wp_bind]
    unfold Site.onWorld onStore
    rw [wp_zoom, wp_update, andThen_ok]
    exact hrest _ _ ⟨⟨hkeys, h.installed⟩, h.ids.add hfresh⟩

end Migrations

/-! ## Runs -/

section Runs

variable {κ : Type} {H : Host κ} {N : NatBackend κ} {decodeKey : String → Option String} {d : Option String}
variable {site site' : Site (Tabled κ)} {e : Event}

/-- A step keeps ids apart, and keys exactly when it doubles none. -/
theorem step_good_iff (hids : State.IdsApart site.world.store.forwards) (hone : OnePerKey d site.world)
    (hstep : step H N decodeKey d site e = some site') :
    State.IdsApart site'.world.store.forwards ∧ (OnePerKey d site'.world ↔ ¬DoublesKey d site e) := by
  have h : Good d site.world := ⟨hone, hids⟩
  have hgood (h' : Good d site'.world) :
      State.IdsApart site'.world.store.forwards ∧ (OnePerKey d site'.world ↔ ¬False) :=
    ⟨h'.ids, iff_of_true h'.toOnePerKey not_false⟩
  unfold step at hstep
  split at hstep
  · next hfresh =>
    cases hstep
    cases e with
    | add who req now id conf pass => exact good_addForward_iff (hfresh id rfl) h
    | update id req conf pass => exact hgood (good_updateForward h)
    | remove id pass => exact hgood (good_removeForward site.world h)
    | migrate who key now id reads => exact hgood (good_migrate (hfresh id rfl) h)
    | dnat files => exact hgood h
  · cases hstep

end Runs

/-- While the default route stays, requests on an empty store leave one forward for each key, in the
store and in the table, all the time, exactly when none of them adds a forward that names the
interface for one that does not, or the other way round. -/
theorem one_per_key_iff {κ : Type} (H : Host κ) (N : NatBackend κ) (decodeKey : String → Option String)
    (d : Option String) (live : Live) (host : κ) (accepted : RulesetConfig) (files : DnatAdapter) (es : List Event)
    (site : Site (Tabled κ)) (hrun : Lts.run (step H N decodeKey d) (start live host accepted files) es = some site) :
    Lts.Always (step H N decodeKey d) (fun site => OnePerKey d site.world) (start live host accepted files) es ↔
      Lts.StepsMeet (step H N decodeKey d) (fun site e => ¬DoublesKey d site e) (start live host accepted files) es := by
  have hids : State.IdsApart (start live host accepted files).world.store.forwards := List.nodup_nil
  have hone : OnePerKey d (start live host accepted files).world := ⟨List.Pairwise.nil, List.Pairwise.nil⟩
  exact Lts.always_iff_stepsMeet_of_invariant (I := fun site => State.IdsApart site.world.store.forwards)
    (fun _ _ _ hids hone hstep => step_good_iff hids hone hstep) hids hone hrun

/-! ### An interface named and not named -/

/-- From port 443, on the interface, to a web server. -/
def webOn (iface : Option String) : AddForwardRequest :=
  ⟨.tcp, iface, .single 443, "192.0.2.10", .single 8443, .auto, ""⟩

def addOn (iface : Option String) (id : ForwardId) : Event := .add ⟨1⟩ (webOn iface) 0 id (.ok ()) fun _ => eth0

/-- No forwards, and one rule of dnat. -/
def emptySite : Site (Tabled (List Bool)) :=
  start ⟨false, false⟩ [] (AgentConfig.default.rulesetWith State.default.rulesetFlags)
    ⟨true, "53>eth1>192.0.2.2:53>auto\n", []⟩

/-- A step where the default route is on `eth0`, every call succeeds, and clients send keys as they are. -/
def routedStep : Site (Tabled (List Bool)) → Event → Option (Site (Tabled (List Bool))) :=
  step Migration.answerHost answerNat some (some "eth0")

/-- An interface is named in place, the forward is replaced by another that names it, a rule of dnat is
taken over, and one of the forwards is removed. -/
theorem one_per_key_mixed :
    Lts.Always routedStep (fun site => OnePerKey (some "eth0") site.world) emptySite
      [addOn none ⟨1⟩, .update ⟨1⟩ (webOn (some "eth0")) (.ok ()) fun _ => eth0, addOn (some "eth0") ⟨2⟩,
        .migrate ⟨1⟩ "53>eth1>" 0 ⟨3⟩ (Migration.plainReads (.ok ())), .remove ⟨2⟩ fun _ => eth0] := by
  have hrun : (Lts.run routedStep emptySite
      [addOn none ⟨1⟩, .update ⟨1⟩ (webOn (some "eth0")) (.ok ()) fun _ => eth0, addOn (some "eth0") ⟨2⟩,
        .migrate ⟨1⟩ "53>eth1>" 0 ⟨3⟩ (Migration.plainReads (.ok ())), .remove ⟨2⟩ fun _ => eth0]).isSome = true := by
    decide +kernel
  obtain ⟨site, hsite⟩ := Option.isSome_iff_exists.mp hrun
  exact (one_per_key_iff Migration.answerHost answerNat some (some "eth0") _ _ _ _ _ site hsite).mpr (by decide +kernel)

/-- A forward for the default route and then one that names its interface: both requests are answered
well, and there are two forwards for one key. -/
theorem key_doubled :
    Lts.StepsMeet routedStep
        (fun site e => (answer Migration.answerHost answerNat some (some "eth0") site e).1.isOk = true) emptySite
        [addOn none ⟨1⟩, addOn (some "eth0") ⟨2⟩] ∧
      ¬Lts.Always routedStep (fun site => OnePerKey (some "eth0") site.world) emptySite
        [addOn none ⟨1⟩, addOn (some "eth0") ⟨2⟩] := by
  refine ⟨by decide +kernel, fun h => ?_⟩
  have hdoubled : (Lts.run routedStep emptySite [addOn none ⟨1⟩, addOn (some "eth0") ⟨2⟩]).any
      (fun site => !decide (KeysApart (some "eth0") site.world.store.forwards)) = true := by decide +kernel
  obtain ⟨site, hrun, htwo⟩ := (Option.any_eq_true _ _).mp hdoubled
  have hone := h _ [] site (List.append_nil _).symm hrun
  simp [hone.stored] at htwo

end Ipgate.Keys
