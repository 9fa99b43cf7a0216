-- SUMMARY: Ports that the agent and dnat both forward: how the list shows them, and which events lead to them.
import Ipgate.Agent.Api.Keys

/-!
# Two authorities for a port

The agent and dnat each rewrite packets in a table of their own, and a port that both of them
listen on goes to whichever comes first. The agent refuses a forward on ports of dnat, as far as
it can read the file of dnat, and a migration removes the rule of dnat that it has taken over. What
is left is shown as a conflict in the list of forwards.
-/

namespace Ipgate.Authority

open Net Act Keys

/-! ## Conflicts -/

/-- The forward listens on ports of the rule, on its interface. -/
def Meets (d : Option String) (f : ForwardRule) (r : DnatRule) : Prop :=
  effIface d f.iface = some r.iface ∧ f.listen.overlaps r.listen = true

/-- The request is for a port of the rules. -/
def Takes (d : Option String) (a : DnatAdapter) (req : AddForwardRequest) : Prop :=
  a.present = true ∧ ∃ r ∈ a.rules, effIface d req.iface = some r.iface ∧ req.listen.overlaps r.listen = true

/-- Some port is both a forward's and a rule's. -/
def Doubled {κ : Type} (d : Option String) (site : Site κ) : Prop :=
  site.dnat.present = true ∧ ∃ f ∈ site.world.store.forwards, ∃ r ∈ site.dnat.rules, Meets d f r

/-- A list for which the file of dnat can be read shows no conflict. -/
def Clear {κ : Type} (encodeKey : String → String) (d : Option String) (site : Site κ) : Prop :=
  ∀ state, ∀ v ∈ (listForwards encodeKey site.dnat ⟨.ok (), state, d⟩ site.world.store).forwards, v.conflict = false

instance (d : Option String) (f : ForwardRule) (r : DnatRule) : Decidable (Meets d f r) :=
  inferInstanceAs (Decidable (_ ∧ _))

instance (d : Option String) (a : DnatAdapter) (req : AddForwardRequest) : Decidable (Takes d a req) :=
  inferInstanceAs (Decidable (_ ∧ _))

instance {κ : Type} (d : Option String) (site : Site κ) : Decidable (Doubled d site) :=
  inferInstanceAs (Decidable (_ ∧ _))

section Conflicts

variable {κ : Type} {encodeKey : String → String} {d : Option String} {site : Site κ}
variable {others : List UnifiedForwardView} {v : UnifiedForwardView} {p q : PortRange}

theorem overlaps_comm : p.overlaps q = q.overlaps p := by
  unfold PortRange.overlaps
  exact Bool.and_comm _ _

/-- A view without a conflict of its own is marked when one of the others is in its way. -/
theorem markConflict_conflict (hv : v.conflict = false) : (markConflict d others v).conflict = true ↔
    ∃ o ∈ others, ∃ i, effIface d v.iface = some i ∧ effIface d o.iface = some i ∧
      v.listen.overlaps o.listen = true := by
  have htest : ((v.iface.orElse fun _ => d).isSome && others.any fun o =>
      (o.iface.orElse fun _ => d) = (v.iface.orElse fun _ => d) && v.listen.overlaps o.listen) = true ↔
        ∃ o ∈ others, ∃ i, effIface d v.iface = some i ∧ effIface d o.iface = some i ∧
          v.listen.overlaps o.listen = true := by
    rw [Bool.and_eq_true_iff, Option.isSome_iff_exists, List.any_eq_true]
    constructor
    · rintro ⟨⟨i, hi⟩, o, ho, hsame⟩
      obtain ⟨hiface, hports⟩ := Bool.and_eq_true_iff.mp hsame
      exact ⟨o, ho, i, hi, (of_decide_eq_true hiface).trans hi, hports⟩
    · rintro ⟨o, ho, i, hi, hoi, hports⟩
      exact ⟨⟨i, hi⟩, o, ho, Bool.and_eq_true_iff.mpr ⟨decide_eq_true (hoi.trans hi.symm), hports⟩⟩
  unfold markConflict
  dsimp only
  rw [← htest]
  split
  · next htrue => exact iff_of_true rfl htrue
  · next hfalse => exact iff_of_false (by rw [hv]; decide) hfalse

/-- The list shows a conflict exactly when a port has two authorities. -/
theorem clear_iff : Clear encodeKey d site ↔ ¬Doubled d site := by
  unfold Clear listForwards Doubled
  simp only [List.mem_append, List.mem_map]
  constructor
  · rintro h ⟨hpresent, f, hf, r, hr, hiface, hports⟩
    -- A reading that succeeds marks the forward itself.
    let dnat := if site.dnat.present then ((site.dnat.readConf (.ok ())).readState (.ok ())).list encodeKey else []
    have hview := h (.ok ()) (markConflict d dnat (nativeUnified site.world.store f)) (.inl ⟨_, ⟨f, hf, rfl⟩, rfl⟩)
    refine Bool.false_ne_true (hview.symm.trans ((markConflict_conflict rfl).mpr ?_))
    show ∃ o ∈ (if site.dnat.present then _ else []), _
    rw [if_pos hpresent]
    exact ⟨_, List.mem_map.mpr ⟨r, hr, rfl⟩, r.iface, hiface, rfl, hports⟩
  · intro hnot state v hv
    rw [← Bool.not_eq_true]
    intro hconflict
    -- A view of the list is that of a forward or that of a rule of dnat.
    obtain ⟨n, ⟨f, hf, rfl⟩, rfl⟩ | ⟨n, hn, rfl⟩ := hv
    · obtain ⟨o, ho, i, hi, hoi, hports⟩ := (markConflict_conflict rfl).mp hconflict
      split at ho
      · next hpresent =>
        obtain ⟨r, hr, rfl⟩ := List.mem_map.mp ho
        obtain rfl : r.iface = i := Option.some.inj hoi
        exact hnot ⟨hpresent, f, hf, r, hr, hi, hports⟩
      · cases ho
    · split at hn
      · next hpresent =>
        obtain ⟨r, hr, rfl⟩ := List.mem_map.mp hn
        obtain ⟨o, ho, i, hi, hoi, hports⟩ := (markConflict_conflict rfl).mp hconflict
        obtain ⟨f, hf, rfl⟩ := List.mem_map.mp ho
        obtain rfl : r.iface = i := Option.some.inj hi
        exact hnot ⟨hpresent, f, hf, r, hr, hoi, overlaps_comm.trans hports⟩
      · cases hn

end Conflicts

/-! ## Requests -/

/-- A request for a forward or a change by dnat, or a request to remove a rule of dnat. -/
inductive Request where
  | forward (e : Keys.Event)
  | removeDnat (key : String) (reads : DnatReads)

section System

variable {κ : Type} (H : Host κ) (N : NatBackend κ) (decodeKey : String → Option String) (d : Option String)

def step (site : Site (Tabled κ)) : Request → Option (Site (Tabled κ))
  | .forward e => Keys.step H N decodeKey d site e
  | .removeDnat key reads => some (removeDnatForward decodeKey reads key site).2

/-- The request takes a port of dnat, and passes the checks because the file of dnat cannot be read. -/
def TakesUnread (conf : Except String Unit) (req : AddForwardRequest) (site : Site (Tabled κ)) : Prop :=
  conf.isOk = false ∧ (checkForwardRequest site.dnat conf d req).isOk = true ∧ Takes d site.dnat req

instance (conf : Except String Unit) (req : AddForwardRequest) (site : Site (Tabled κ)) :
    Decidable (TakesUnread d conf req site) := inferInstanceAs (Decidable (_ ∧ _))

/-- The forward is there, and no other is in the way of the request. -/
def Changes (id : ForwardId) (req : AddForwardRequest) (site : Site (Tabled κ)) : Prop :=
  Forwarding.overlapsOther site.world.store d id req = false ∧ (site.world.store.findForward id).isSome = true

instance (id : ForwardId) (req : AddForwardRequest) (site : Site (Tabled κ)) : Decidable (Changes d id req site) :=
  inferInstanceAs (Decidable (_ ∧ _))

/-- The migration adds its rule and leaves one of dnat on a port of it: the rule is not saved, not
installed, or resolved while the file keeps such a rule. -/
def LeavesBoth (reads : DnatReads) (who : DeviceId) (key : String) (now : DateTime) (id : ForwardId)
    (site : Site (Tabled κ)) : Prop :=
  ∃ dnatKey rule, migratable decodeKey reads site key = .ok (dnatKey, rule) ∧
    ((Migration.addAnswer H N reads who now id site rule).isOk = false ∨
      ((resolveAll reads.pass (Migration.added who now id site rule)).map id).isSome ∧
        ∃ r ∈ Dnat.parseConf (removePrefix reads.conf dnatKey site.dnat.conf).2,
          r.iface = rule.iface ∧ rule.listen.overlaps r.listen = true)

instance (reads : DnatReads) (who : DeviceId) (key : String) (now : DateTime) (id : ForwardId)
    (site : Site (Tabled κ)) : Decidable (LeavesBoth H N decodeKey reads who key now id site) :=
  decidable_of_iff (∃ m ∈ (migratable decodeKey reads site key).toOption,
      ((Migration.addAnswer H N reads who now id site m.2).isOk = false ∨
        ((resolveAll reads.pass (Migration.added who now id site m.2)).map id).isSome ∧
          ∃ r ∈ Dnat.parseConf (removePrefix reads.conf m.1 site.dnat.conf).2,
            r.iface = m.2.iface ∧ m.2.listen.overlaps r.listen = true)) <| by
    unfold LeavesBoth
    simp only [Option.mem_def, Except.toOption_eq_some, Prod.exists]

/-- The step gives a port a second authority. -/
def Doubles (site : Site (Tabled κ)) : Request → Prop
  | .forward (.migrate who key now id reads) => LeavesBoth H N decodeKey (dnatReadsAt d reads) who key now id site
  | .forward (.dnat files) => Doubled d { site with dnat := files }
  | .forward (.add _ req _ _ conf _) => TakesUnread d conf req site
  | .forward (.update id req conf _) => TakesUnread d conf req site ∧ Changes d id req site
  | .forward (.remove _ _) | .removeDnat _ _ => False

instance (site : Site (Tabled κ)) : (q : Request) → Decidable (Doubles H N decodeKey d site q)
  | .forward (.migrate _ _ _ _ _) => inferInstanceAs (Decidable (LeavesBoth ..))
  | .forward (.dnat _) => inferInstanceAs (Decidable (Doubled ..))
  | .forward (.add _ _ _ _ _ _) => inferInstanceAs (Decidable (TakesUnread ..))
  | .forward (.update _ _ _ _) => inferInstanceAs (Decidable (_ ∧ _))
  | .forward (.remove _ _) | .removeDnat _ _ => .isFalse not_false

end System

/-! ## What a request leaves -/

section Requests

variable {κ : Type} {H : Host κ} {N : NatBackend κ} {a : DnatAdapter} {d : Option String} {w : World (Tabled κ)}
variable {who : DeviceId} {req : AddForwardRequest} {now : DateTime} {id : ForwardId} {pass : ForwardRule → HostEnv}
variable {site site' : Site (Tabled κ)} {reads : DnatReads} {decodeKey : String → Option String}
variable {key dnatKey : String} {rule : DnatRule} {conf : Except String Unit} {changed : Prop}

/-- A change of the forwards: each was there before, or is as the request says, and one is. -/
structure GrownBy (changed : Prop) (req : AddForwardRequest) (fs fs' : List ForwardRule) : Prop where
  old : ∀ f ∈ fs', f ∈ fs ∨ (changed ∧ f.iface = req.iface ∧ f.listen = req.listen)
  new : changed → ∃ f ∈ fs', f.iface = req.iface ∧ f.listen = req.listen

theorem GrownBy.refl {fs : List ForwardRule} (h : ¬changed) : GrownBy changed req fs fs :=
  ⟨fun _ hf => .inl hf, fun hchanged => (h hchanged).elim⟩

theorem grownBy_land {rule : ForwardRule} {fs : List ForwardRule} (h : GrownBy changed req fs w.store.forwards) :
    wp (land H N pass rule) (fun _ w' => GrownBy changed req fs w'.store.forwards) w := by
  have hforwards : (land H N pass rule w).2.store.forwards = w.store.forwards := frames_land w
  show GrownBy changed req fs (land H N pass rule w).2.store.forwards
  rw [hforwards]
  exact h

theorem wp_addForward_grown : wp (addForward (tabled H) (tabledNat N) a (readsAt d conf pass) who req now id)
    (fun _ w' => GrownBy ((checkForwardRequest a conf d req).isOk = true) req w.store.forwards w'.store.forwards) w := by
  unfold addForward onStore
  rw [wp_bind, wp_lift]
  show andThen _ _ (checkForwardRequest a conf d req) w
  cases checkForwardRequest a conf d req with
  | error e => exact .refl Bool.false_ne_true
  | ok =>
    rw [andThen_ok, wp_bind, wp_update, andThen_ok]
    refine grownBy_land (w := { w with store := (w.store.addForward req who now id).2 }) ⟨fun f hf => ?_, fun _ => ?_⟩
    · cases List.mem_append.mp hf with
      | inl hold => exact .inl (List.mem_filter.mp hold).1
      | inr hnew =>
        obtain rfl := List.mem_singleton.mp hnew
        exact .inr ⟨rfl, rfl, rfl⟩
    · exact ⟨_, List.mem_append_right _ (List.mem_singleton_self _), rfl, rfl⟩

theorem grownBy_changeForward : GrownBy ((w.store.findForward id).isSome = true) req w.store.forwards
    (changeForward id req w.store).2.forwards := by
  cases hfind : w.store.findForward id with
  | none =>
    unfold changeForward State.updateForward
    rw [hfind]
    exact .refl Bool.false_ne_true
  | some old =>
    rw [changeForward_some hfind]
    refine ⟨fun f hf => ?_, fun _ => ?_⟩
    · cases State.mem_replaceForward hf with
      | inl hold => exact .inl hold
      | inr hnew =>
        subst hnew
        exact .inr ⟨rfl, rfl, rfl⟩
    · exact ⟨_, State.self_mem_replaceForward hfind, rfl, rfl⟩

theorem wp_updateForward_grown : wp (updateForward (tabled H) (tabledNat N) a (readsAt d conf pass) id req)
    (fun _ w' => GrownBy ((checkForwardRequest a conf d req).isOk = true ∧ Changes d id req ⟨w, a⟩) req
      w.store.forwards w'.store.forwards) w := by
  unfold updateForward onStore
  rw [wp_bind, wp_lift]
  show andThen _ _ (checkForwardRequest a conf d req) w
  cases checkForwardRequest a conf d req with
  | error e => exact .refl fun h => Bool.false_ne_true h.1
  | ok =>
    simp only [andThen_ok, wp_bind, wp_get, rejectIf, wp_onlyIf, wp_update]
    refine ⟨fun hclash => .refl fun h => ?_, fun hfree => ?_⟩
    · exact Bool.false_ne_true (h.2.1.symm.trans hclash)
    · have hchanges : (Except.isOk (.ok () : Except ApiError Unit) = true ∧ Changes d id req ⟨w, a⟩) ↔
          (w.store.findForward id).isSome = true := ⟨fun h => h.2.2, fun h => ⟨rfl, hfree, h⟩⟩
      rw [hchanges]
      have hgrown : GrownBy ((w.store.findForward id).isSome = true) req w.store.forwards
          (changeForward id req w.store).2.forwards := grownBy_changeForward
      cases hchange : (changeForward id req w.store).1 with
      | none => exact hgrown
      | some rule => exact grownBy_land (w := { w with store := (changeForward id req w.store).2 }) hgrown

/-- A request for a port of dnat passes the checks only where the file cannot be read. -/
theorem unread_of_takes (hcheck : (checkForwardRequest a conf d req).isOk = true) (htakes : Takes d a req) :
    conf.isOk = false := by
  rw [← Bool.not_eq_true]
  intro hread
  obtain ⟨hpresent, r, hr, hiface, hports⟩ := htakes
  have hclash : clashesWithDnat a conf d req = true := by
    unfold clashesWithDnat DnatAdapter.readConf
    have heff : (req.iface.orElse fun _ => d) = some r.iface := hiface
    rw [hpresent, heff, hread, Bool.true_and]
    exact List.any_eq_true.mpr ⟨r, hr, Bool.and_eq_true_iff.mpr ⟨decide_eq_true rfl, hports⟩⟩
  cases hall : checkForwardRequest a conf d req with
  | error e =>
    rw [hall] at hcheck
    cases hcheck
  | ok =>
    unfold checkForwardRequest at hall
    rw [hclash] at hall
    obtain ⟨-, -, hall⟩ := Except.bind_eq_ok.mp hall
    split at hall
    · cases hall
    · obtain ⟨-, -, hall⟩ := Except.bind_eq_ok.mp hall
      cases hall

/-- A request that passes the checks takes a port of dnat unread if it takes one. -/
theorem takesUnread_iff : TakesUnread d conf req site ↔
    (checkForwardRequest site.dnat conf d req).isOk = true ∧ Takes d site.dnat req :=
  ⟨And.right, fun h => ⟨unread_of_takes h.1 h.2, h⟩⟩

/-- Forwards that have grown are on a new port of dnat exactly when the request takes one. -/
theorem doubled_grown_iff {w' : World (Tabled κ)} (h : ¬Doubled d ⟨w, a⟩)
    (hgrown : GrownBy changed req w.store.forwards w'.store.forwards) :
    Doubled d ⟨w', a⟩ ↔ changed ∧ Takes d a req := by
  constructor
  · rintro ⟨hpresent, f, hf, r, hr, hmeets⟩
    obtain hold | ⟨hchanged, hiface, hlisten⟩ := hgrown.old f hf
    · exact (h ⟨hpresent, f, hold, r, hr, hmeets⟩).elim
    · exact ⟨hchanged, hpresent, r, hr, hiface ▸ hmeets.1, hlisten ▸ hmeets.2⟩
  · rintro ⟨hchanged, hpresent, r, hr, hmeets⟩
    obtain ⟨f, hf, hiface, hlisten⟩ := hgrown.new hchanged
    exact ⟨hpresent, f, hf, r, hr, hiface ▸ hmeets.1, hlisten ▸ hmeets.2⟩

/-- No forward and no rule has been added. -/
structure Shrinks (site site' : Site (Tabled κ)) : Prop where
  present : site'.dnat.present = site.dnat.present
  forwards : site'.world.store.forwards ⊆ site.world.store.forwards
  rules : site'.dnat.rules ⊆ site.dnat.rules

theorem Shrinks.not_doubled (hshrinks : Shrinks site site') (h : ¬Doubled d site) : ¬Doubled d site' := by
  rintro ⟨hthere, f, hf, r, hr, hmeets⟩
  exact h ⟨hshrinks.present ▸ hthere, f, hshrinks.forwards hf, r, hshrinks.rules hr, hmeets⟩

/-- Removing rules adds none. -/
theorem removePrefix_rules {answers : ConfAnswers} {conf : String} :
    Dnat.parseConf (removePrefix answers key conf).2 ⊆ Dnat.parseConf conf := by
  cases hlock : answers.lock with
  | error e =>
    unfold removePrefix
    rw [hlock]
    exact List.Subset.refl _
  | ok =>
    cases hread : answers.read with
    | error e =>
      rw [removePrefix_unreadable hlock hread]
      exact List.Subset.refl _
    | ok =>
      have hleft : Dnat.parseConf (Dnat.removeRuleLines conf key).1 ⊆ Dnat.parseConf conf := by
        rw [Dnat.parseConf_removeRuleLines]
        exact List.filter_sublist.subset
      unfold removePrefix
      simp only [hlock, hread, Except.isOk, Except.toBool, if_true]
      split
      · split
        · exact List.Subset.refl _
        · exact hleft
      · exact List.Subset.refl _

theorem removeDnatForward_shrinks : Shrinks site (removeDnatForward decodeKey reads key site).2 := by
  have hall : wp (removeDnatForward decodeKey reads key) (fun _ site' => Shrinks site site') site := by
    simp only [removeDnatForward, wp_bind, wp_get, andThen_ok, wp_lift]
    cases dnatPrefixFromKey decodeKey site.dnat key with
    | error e => exact ⟨rfl, List.Subset.refl _, List.Subset.refl _⟩
    | ok dnatKey =>
      have hcall : wp (callRemovePrefix reads.conf dnatKey) (fun _ site' => Shrinks site site') site :=
        ⟨rfl, List.Subset.refl _, removePrefix_rules⟩
      rw [andThen_ok, wp_bind, wp_mapErr]
      refine wp_mono hcall fun r site' h => ?_
      cases r with
      | error e => exact h
      | ok removed => cases removed <;> exact h
  exact hall

/-! ### Migrations -/

theorem migratable_present {site : Site κ} (h : migratable decodeKey reads site key = .ok (dnatKey, rule)) :
    site.dnat.present = true := by
  unfold migratable dnatPrefixFromKey at h
  cases hpresent : site.dnat.present with
  | true => rfl
  | false =>
    rw [hpresent] at h
    cases h

/-- Whether a migration leaves a port with two authorities is seen at its end. -/
theorem wp_migrate_doubled (hid : ∀ f ∈ site.world.store.forwards, f.id ≠ id) (h : ¬Doubled d site) :
    wp (migrateDnatForward (tabled H) (tabledNat N) decodeKey reads who key now id)
      (fun _ site' => Doubled d site' ↔ LeavesBoth H N decodeKey reads who key now id site) site := by
  refine wp_mono (Migration.wp_migrate hid) fun r site' hend => ?_
  cases hend with
  | rejected hchecks =>
    refine iff_of_false h ?_
    rintro ⟨k, rule, hok, -⟩
    cases hchecks.symm.trans hok
  | @refused dnatKey rule _ _ hchecks hadd hdnat hstore =>
    have hm := Migration.migratable_ok hchecks
    let new := (site.world.store.addForward (dnatRuleToAddRequest rule) who now id).1
    -- The save was refused: the new rule is in memory, and the old one still in the file.
    refine iff_of_true ⟨?_, new, ?_, rule, ?_, rfl, overlaps_self hm.valid⟩ ⟨dnatKey, rule, hchecks, .inl hadd⟩
    · rw [hdnat]
      exact migratable_present hchecks
    · rw [hstore, hm.forwards_added]
      exact List.mem_append_right _ (List.mem_singleton_self new)
    · rw [hdnat]
      exact (DnatAdapter.findRuleByPrefix_eq_some hm.found).1
  | undone hchecks hadd hlive hdnat hforwards =>
    have hkept : site'.world.store.forwards = site.world.store.forwards := hforwards
    -- The new rule is gone again, and what shrinks has no new conflicts.
    have hshrinks : Shrinks site site' := by
      constructor
      · rw [hdnat]
      · rw [hkept]
        exact List.Subset.refl _
      · rw [hdnat]
        exact List.Subset.refl _
    refine iff_of_false (hshrinks.not_doubled h) ?_
    rintro ⟨k, rule, hok, hleft⟩
    cases hchecks.symm.trans hok
    obtain hrefused | ⟨hsome, -⟩ := hleft
    · rw [hadd] at hrefused
      cases hrefused
    · rw [hlive] at hsome
      cases hsome
  | @live dnatKey rule _ _ hchecks hadd hlive htaken hconf hresult =>
    have hm := Migration.migratable_ok hchecks
    obtain ⟨rule', new, hfound, hforwards, hcarries, -⟩ := htaken
    obtain rfl : rule = rule' := Option.some.inj (hm.found.symm.trans hfound)
    -- Both are in force now, so it depends on what the removal has left in the file.
    have hrules : site'.dnat.rules = Dnat.parseConf (removePrefix reads.conf dnatKey site.dnat.conf).2 := by
      rw [hconf]
      rfl
    have hmeets (r : DnatRule) : Meets d new r ↔ r.iface = rule.iface ∧ rule.listen.overlaps r.listen = true := by
      unfold Meets effIface
      rw [hcarries.iface, hcarries.listen]
      exact and_congr_left fun _ => ⟨fun hsame => (Option.some.inj hsame).symm, fun hsame => congrArg some hsame.symm⟩
    constructor
    · rintro ⟨-, f, hf, r, hr, hmeet⟩
      rw [hrules] at hr
      have hf : f ∈ Migration.forwards site ++ [new] := hforwards ▸ hf
      cases List.mem_append.mp hf with
      | inl hold => exact (h ⟨migratable_present hchecks, f, hold, r, removePrefix_rules hr, hmeet⟩).elim
      | inr hnew =>
        obtain rfl := List.mem_singleton.mp hnew
        exact ⟨dnatKey, rule, hchecks, .inr ⟨hlive, r, hr, (hmeets r).mp hmeet⟩⟩
    · rintro ⟨k, rule', hok, hleft⟩
      cases hchecks.symm.trans hok
      obtain hrefused | ⟨-, r, hr, hmeet⟩ := hleft
      · rw [hadd] at hrefused
        cases hrefused
      · refine ⟨?_, new, ?_, r, hrules ▸ hr, (hmeets r).mpr hmeet⟩
        · rw [hconf]
          exact migratable_present hchecks
        · have hnew : new ∈ Migration.forwards site' := by
            rw [hforwards]
            exact List.mem_append_right _ (List.mem_singleton_self new)
          exact hnew

theorem wp_removeForward_shrinks : wp (Site.onWorld (removeForward (tabled H) (tabledNat N) (atRoute d pass) id))
    (fun _ site' => Shrinks site site') site := by
  have hkeep (fs : List ForwardRule) : Preserves (fun w => w.store.forwards ⊆ fs)
      (removeForward (tabled H) (tabledNat N) (atRoute d pass) id) := by
    refine preserves_bind (fun w h f hf => h (State.mem_removeForward.mp hf).1) fun removed => ?_
    refine preserves_bind (preserves_onlyIf preserves_fail) fun _ => preserves_bind (fun w h => h) fun _ => ?_
    refine preserves_bind (preserves_mapErr fun w h => ?_) fun _ => preserves_pure
    have hframes : Frames State.forwards (applyNow (tabled H) (tabledNat N) (atRoute d pass)) :=
      frames_applyNow fun _ _ => rfl
    have hforwards : (applyNow (tabled H) (tabledNat N) (atRoute d pass) w).2.store.forwards = w.store.forwards :=
      hframes w
    rw [hforwards]
    exact h
  exact ⟨rfl, hkeep site.world.store.forwards site.world (List.Subset.refl _), List.Subset.refl _⟩

/-- A step gives a port a second authority exactly when it is one that does. -/
theorem step_doubled_iff {q : Request} (h : ¬Doubled d site) (hstep : step H N decodeKey d site q = some site') :
    Doubled d site' ↔ Doubles H N decodeKey d site q := by
  cases q with
  | removeDnat key reads =>
    have hshrinks : Shrinks site (removeDnatForward decodeKey reads key site).2 := removeDnatForward_shrinks
    rw [Option.some.inj hstep] at hshrinks
    exact iff_of_false (hshrinks.not_doubled h) not_false
  | forward e =>
    have hstep : Keys.step H N decodeKey d site e = some site' := hstep
    unfold Keys.step at hstep
    split at hstep
    · next hfresh =>
      cases hstep
      cases e with
      | add who req now id conf pass =>
        exact (doubled_grown_iff h wp_addForward_grown).trans takesUnread_iff.symm
      | update id req conf pass =>
        refine (doubled_grown_iff h wp_updateForward_grown).trans ?_
        rw [and_right_comm]
        exact and_congr_left fun _ => takesUnread_iff.symm
      | remove id pass => exact iff_of_false (Shrinks.not_doubled wp_removeForward_shrinks h) not_false
      | migrate who key now id reads => exact wp_migrate_doubled (hfresh id rfl) h
      | dnat files => exact Iff.rfl
    · cases hstep

end Requests

/-- While the default route stays, a list without a conflict stays so over any requests and changes by dnat
exactly when no request takes a port of dnat while the file of dnat cannot be read, no migration leaves both
rules of a port, and no change by dnat takes a port of a forward. In every state the list shows a conflict
exactly when a port has two authorities. -/
theorem no_conflict_iff {κ : Type} (H : Host κ) (N : NatBackend κ) (decodeKey : String → Option String)
    (encodeKey : String → String) (d : Option String) (site site' : Site (Tabled κ)) (qs : List Request)
    (hclear : Clear encodeKey d site) (hrun : Lts.run (step H N decodeKey d) site qs = some site') :
    (Lts.Always (step H N decodeKey d) (Clear encodeKey d) site qs ↔
      Lts.StepsMeet (step H N decodeKey d) (fun site q => ¬Doubles H N decodeKey d site q) site qs) ∧
    ∀ t : Site (Tabled κ), Clear encodeKey d t ↔ ¬Doubled d t := by
  refine ⟨Lts.always_iff_stepsMeet (fun s q s' hs hstep => ?_) hclear hrun, fun t => clear_iff⟩
  rw [clear_iff] at hs ⊢
  exact not_congr (step_doubled_iff hs hstep)

/-! ### A migration that goes through, one that is refused, and a file that cannot be read -/

/-- Steps as in `routedStep`. -/
def besideStep : Site (Tabled (List Bool)) → Request → Option (Site (Tabled (List Bool))) :=
  step Migration.answerHost answerNat some (some "eth0")

/-- The rule for port 53 is taken over. -/
def takeDns (id : ForwardId) : Request :=
  .forward (.migrate ⟨1⟩ "53>eth1>" 0 id (Migration.plainReads (.ok ())))

/-- A forward for port 53 is requested. -/
def addDns (conf : Except String Unit) : Request :=
  .forward (.add ⟨1⟩ ⟨.udp, some "eth1", .single 53, "192.0.2.10", .single 53, .auto, ""⟩ 0 ⟨3⟩ conf fun _ => eth0)

/-- A web server, the rule for port 53, at first in the way, a new rule of dnat, and the removal of two of them. -/
def besideDnat : List Request :=
  [.forward (addOn none ⟨1⟩), addDns (.ok ()), takeDns ⟨2⟩,
    .forward (.dnat ⟨true, "80>eth0>192.0.2.3:80>auto\n", []⟩),
    .removeDnat "80>eth0>" (Migration.plainReads (.ok ())), .forward (.remove ⟨1⟩ fun _ => eth0)]

/-- The same site, where the kernel refuses the first table. -/
def refusingSite : Site (Tabled (List Bool)) :=
  start ⟨false, false⟩ [true, false] (AgentConfig.default.rulesetWith State.default.rulesetFlags)
    ⟨true, "53>eth1>192.0.2.2:53>auto\n", []⟩

theorem no_conflict_beside_dnat :
    Lts.Always besideStep (Clear id (some "eth0")) emptySite besideDnat ∧
      ¬Lts.Always besideStep (Clear id (some "eth0")) refusingSite [takeDns ⟨1⟩] ∧
      ¬Lts.Always besideStep (Clear id (some "eth0")) emptySite [addDns (.error "Permission denied")] := by
  have hclear : Clear id (some "eth0") emptySite ∧ Clear id (some "eth0") refusingSite := by
    simp only [clear_iff]
    decide +kernel
  have hrun : (Lts.run besideStep emptySite besideDnat).isSome = true := by decide +kernel
  have hrefused : (Lts.run besideStep refusingSite [takeDns ⟨1⟩]).isSome = true := by decide +kernel
  have hunread : (Lts.run besideStep emptySite [addDns (.error "Permission denied")]).isSome = true := by
    decide +kernel
  obtain ⟨site, hsite⟩ := Option.isSome_iff_exists.mp hrun
  obtain ⟨site', hsite'⟩ := Option.isSome_iff_exists.mp hrefused
  obtain ⟨site'', hsite''⟩ := Option.isSome_iff_exists.mp hunread
  obtain ⟨hiff, -⟩ :=
    no_conflict_iff Migration.answerHost answerNat some id (some "eth0") _ site _ hclear.1 hsite
  obtain ⟨hiff', -⟩ :=
    no_conflict_iff Migration.answerHost answerNat some id (some "eth0") _ site' _ hclear.2 hsite'
  obtain ⟨hiff'', -⟩ :=
    no_conflict_iff Migration.answerHost answerNat some id (some "eth0") _ site'' _ hclear.1 hsite''
  exact ⟨hiff.mpr (by decide +kernel), (not_congr hiff').mpr (by decide +kernel),
    (not_congr hiff'').mpr (by decide +kernel)⟩

end Ipgate.Authority
