-- SUMMARY: Whether a pass whose host does not resolve falls back to the address it had last, over runs with requests and restarts.
import Ipgate.Agent.Race.Forward

/-!
# The address to fall back to

A pass writes the addresses it found over the whole cache. A rule that it skips, be it
for its interface and not for its host, has no address there afterwards; and a tick that
is skipped leaves in the cache what another pass has found since. `always_remembers_iff`
says which runs keep the address a host had last.
-/

namespace Ipgate.Fallback

open Net Forwarding

/-! ## Runs of passes -/

/-- A rule that stays, with its interface and its host. -/
structure Watched where
  id : ForwardId
  iface : Option String
  destHost : String

/-- The rule is in the store, and ids are apart. -/
def Watched.In (w : Watched) (st : State) : Prop :=
  State.IdsApart st.forwards ∧ ∃ r ∈ st.forwards, r.id = w.id ∧ r.iface = w.iface ∧ r.destHost = w.destHost

instance (w : Watched) (st : State) : Decidable (w.In st) :=
  inferInstanceAs (Decidable ((st.forwards.map ForwardRule.id).Nodup ∧ _))

/-- The daemon between two passes. The hash of the loop is of type `τ`. -/
structure Sys (τ : Type) where
  store : State
  /-- What a restart finds. -/
  disk : State
  lastHash : Option τ
  /-- The permitted address that the host resolved to last, in a pass in which the rule
  could be installed. -/
  last : Option (BitVec 32)

/-- The backend takes every table; the state file can be written or not. -/
inductive Event where
  | apply (env : ForwardRule → HostEnv) (saved : Bool)
  | tick (env : ForwardRule → HostEnv) (saved : Bool)
  | request (r : ForwardRequest) (defaultIface : Option String) (saved : Bool)
  | restart

/-- The address that a pass finds for the host of the rule. -/
def heard (w : Watched) (env : ForwardRule → HostEnv) (st : State) : Option (BitVec 32) :=
  match st.findForward w.id with
  | some r =>
    if sendable (env r) r then
      (resolveIpv4 (env r) r.destHost).filter fun ip => (forbiddenForwardTarget ip).isNone
    else none
  | none => none

section Step

variable {τ : Type} (w : Watched) (s : Sys τ)

def Sys.hear (env : ForwardRule → HostEnv) : Sys τ := { s with last := (heard w env s.store).or s.last }

/-- A pass writes the addresses it found over the cache. -/
def Sys.commit (env : ForwardRule → HostEnv) (saved : Bool) : Sys τ :=
  let store := s.store.setResolved (resolveAll env s.store).map
  { s.hear w env with store := store, disk := if saved then store else s.disk }

variable [DecidableEq τ] (hash : List ResolvedForward → τ)

def step (s : Sys τ) : Event → Option (Sys τ)
  | .apply env saved => some (s.commit w env saved)
  | .tick env saved =>
    let h := hash (resolveAll env s.store).resolved
    if s.lastHash = some h then some (s.hear w env) else some { s.commit w env saved with lastHash := some h }
  | .request r defaultIface saved =>
    match r.change defaultIface s.store with
    | some st => if w.In st then some { s with store := st, disk := if saved then st else s.disk } else none
    | none => some s
  | .restart => if w.In s.disk then some { s with store := s.disk, lastHash := none } else none

end Step

/-! ## A pass of the run is a pass of the code -/

section Code

variable {κ : Type} {H : Host κ} {N : NatBackend κ} {env : ForwardRule → HostEnv} {world : World κ}

/-- The backend takes every table. -/
def Takes (N : NatBackend κ) : Prop := ∀ rules k, (N.applyNat rules k).1 = .ok () ∧ (N.flushNat k).1 = .ok ()

theorem commitForwards_store (hN : Takes N) (r : Resolution) (world : World κ) :
    Act.wp (commitForwards H N r)
      (fun out world' => out = .ok () ∧ world'.store = world.store.setResolved r.map) world := by
  have hinstall : Act.wp (installNat N r.resolved)
      (fun out world' => out = .ok () ∧ world'.store = world.store) world := by
    unfold Act.wp installNat
    dsimp only
    split
    · exact ⟨(hN [] world.host).2, rfl⟩
    · exact ⟨(hN r.resolved world.host).1, rfl⟩
  unfold commitForwards
  rw [Act.wp_bind]
  apply Act.wp_mono hinstall
  intro out world' h
  obtain ⟨rfl, hstore⟩ := h
  simp only [Act.andThen_ok, Act.wp_bind]
  refine ⟨rfl, ?_⟩
  show world'.store.setResolved r.map = _
  rw [hstore]

/-- `apply_now` is a pass. -/
theorem applyNow_store (hN : Takes N) (env : ForwardRule → HostEnv) (world : World κ) :
    Act.wp (applyNow H N env) (fun out world' => out.isOk ∧
      world'.store = world.store.setResolved (resolveAll env world.store).map) world := by
  unfold applyNow
  rw [Act.wp_bind, Act.wp_get, Act.andThen_ok, Act.wp_bind]
  apply Act.wp_mono (commitForwards_store hN (resolveAll env world.store) world)
  intro out world' h
  obtain ⟨rfl, hstore⟩ := h
  exact ⟨rfl, hstore⟩

/-- A round of `resolve_loop` is a pass, or leaves the store alone. -/
theorem resolveTick_store {τ : Type} [DecidableEq τ] (hN : Takes N) (hash : List ResolvedForward → τ)
    (env : ForwardRule → HostEnv) (lastHash : Option τ) (world : World κ) :
    Act.wp (resolveTick H N hash env lastHash) (fun out world' =>
      let h := hash (resolveAll env world.store).resolved
      out = .ok (some h) ∧ world'.store =
        if lastHash = some h then world.store else world.store.setResolved (resolveAll env world.store).map) world := by
  unfold resolveTick
  rw [Act.wp_bind, Act.wp_get, Act.andThen_ok]
  dsimp only
  split
  · next hskip =>
    rw [hskip]
    exact ⟨rfl, rfl⟩
  · rw [Act.wp_bind, Act.wp_attempt]
    apply Act.wp_mono (commitForwards_store hN (resolveAll env world.store) world)
    intro out world' h
    obtain ⟨rfl, hstore⟩ := h
    exact ⟨rfl, hstore⟩

end Code

/-! ## What is remembered -/

variable {τ : Type} {w : Watched} {s s' : Sys τ} {st st' : State} {ip : BitVec 32}

/-- Whenever the host does not resolve and the interface of the rule has an IPv4 address, the
rule resolves to the address of its host found last. -/
def Remembers (w : Watched) (s : Sys τ) : Prop :=
  ∀ ip, s.last = some ip → ∀ r ∈ s.store.forwards, r.id = w.id → ∀ env,
    resolveIpv4 env r.destHost = none → sendable env r →
      ∃ rf, resolveOne env r (s.store.resolvedIp w.id) = .ok rf ∧ rf.remoteIp = ip

/-- The target is an address and not a name. -/
def Literal (w : Watched) : Prop := (parseIpv4 (Text.trim w.destHost)).isSome

instance (w : Watched) : Decidable (Literal w) := inferInstanceAs (Decidable (_ = true))

/-- Once an address has been found, the rule is not skipped: its interface is there with an
IPv4 address, and its host, if it resolves, has a permitted one. -/
def Sys.Resolves (w : Watched) (s : Sys τ) (env : ForwardRule → HostEnv) : Prop :=
  s.last ≠ none → ∀ r ∈ s.store.forwards, r.id = w.id →
    sendable (env r) r ∧ ∀ ip ∈ resolveIpv4 (env r) r.destHost, forbiddenForwardTarget ip = none

/-- A pass does not skip the rule; a tick that is left out as it finds what the loop installed
last finds the address in the cache; and what a restart loads has the address. -/
def Keeps [DecidableEq τ] (w : Watched) (hash : List ResolvedForward → τ) (s : Sys τ) : Event → Prop
  | .apply env _ => s.Resolves w env
  | .tick env _ =>
    if s.lastHash = some (hash (resolveAll env s.store).resolved) then
      ∀ ip ∈ heard w env s.store, s.store.resolved w.id = some ip
    else s.Resolves w env
  | .request _ _ _ => True
  | .restart => ∀ ip ∈ s.last, s.disk.resolved w.id = some ip

instance (w : Watched) (s : Sys τ) (env : ForwardRule → HostEnv) : Decidable (s.Resolves w env) :=
  have (r : ForwardRule) : Decidable (∀ ip ∈ resolveIpv4 (env r) r.destHost, forbiddenForwardTarget ip = none) :=
    Option.decidableForallMem (resolveIpv4 (env r) r.destHost)
  inferInstanceAs (Decidable (_ → ∀ r ∈ s.store.forwards, _ → _ ∧ _))

instance [DecidableEq τ] (w : Watched) (hash : List ResolvedForward → τ) (s : Sys τ) :
    (e : Event) → Decidable (Keeps w hash s e)
  | .apply env _ => inferInstanceAs (Decidable (s.Resolves w env))
  | .tick env _ =>
    have : Decidable (∀ ip ∈ heard w env s.store, s.store.resolved w.id = some ip) :=
      Option.decidableForallMem (heard w env s.store)
    inferInstanceAs (Decidable (if s.lastHash = some (hash (resolveAll env s.store).resolved) then
      ∀ ip ∈ heard w env s.store, s.store.resolved w.id = some ip else s.Resolves w env))
  | .request _ _ _ => .isTrue trivial
  | .restart => Option.decidableForallMem s.last

/-- The rule is watched: it is there, and an address found for it is permitted and was found
on an interface with a valid name. -/
structure Watching (w : Watched) (s : Sys τ) : Prop where
  here : w.In s.store
  permitted : ∀ ip ∈ s.last, forbiddenForwardTarget ip = none
  iface : s.last ≠ none → ∀ i ∈ w.iface, validIfaceName i

/-- The address found last is in the cache. -/
def Cached (w : Watched) (s : Sys τ) : Prop := ∀ ip ∈ s.last, s.store.resolved w.id = some ip

/-! ## One pass -/

theorem Watched.In.findForward (h : w.In st) : ∃ r ∈ st.forwards, st.findForward w.id = some r ∧
    r.id = w.id ∧ r.iface = w.iface ∧ r.destHost = w.destHost ∧ ∀ r' ∈ st.forwards, r'.id = w.id → r' = r := by
  obtain ⟨hids, r, hr, hid, hiface, hhost⟩ := h
  have huniq : ∀ r' ∈ st.forwards, r'.id = w.id → r' = r := fun r' hr' hid' =>
    List.inj_on_of_nodup_map hids hr' hr (hid'.trans hid.symm)
  refine ⟨r, hr, ?_, hid, hiface, hhost, huniq⟩
  unfold State.findForward
  cases hfind : st.forwards.find? fun f => f.id = w.id with
  | none =>
    have hne := List.find?_eq_none.mp hfind r hr
    simp [hid] at hne
  | some r' =>
    have hid' : r'.id = w.id := by simpa using List.find?_some hfind
    rw [huniq r' (List.mem_of_find?_eq_some hfind) hid']

theorem heard_eq_some {env : ForwardRule → HostEnv} {r : ForwardRule} (hfind : st.findForward w.id = some r) :
    heard w env st = some ip ↔ sendable (env r) r ∧ forbiddenForwardTarget ip = none ∧
      resolveIpv4 (env r) r.destHost = some ip := by
  unfold heard
  rw [hfind]
  dsimp only
  split
  · next hsend => simp [hsend, Option.filter_eq_some_iff, and_comm]
  · next hsend => simp [hsend]

/-- What a pass leaves in the cache for the rule. -/
theorem commit_cache {env : ForwardRule → HostEnv} {r : ForwardRule} (h : w.In st) (hr : r ∈ st.forwards)
    (hid : r.id = w.id) : (resolveAll env st).map w.id = some ip ↔ sendable (env r) r ∧
      forbiddenForwardTarget ip = none ∧ (resolveIpv4 (env r) r.destHost).or (st.resolved w.id) = some ip := by
  rw [← hid, resolveAll_map_iff h.1 hr, resolvesTo_iff]
  rfl

/-- A pass keeps the address exactly when it does not skip the rule. -/
theorem commit_cached_iff {env : ForwardRule → HostEnv} (saved : Bool) (hs : Watching w s) (hcache : Cached w s) :
    Cached w (s.commit w env saved) ↔ s.Resolves w env := by
  obtain ⟨r, hr, hfind, hid, -, -, huniq⟩ := hs.here.findForward
  have hkeeps : Cached w (s.commit w env saved) ↔
      ∀ ip ∈ (heard w env s.store).or s.last, (resolveAll env s.store).map w.id = some ip := Iff.rfl
  rw [hkeeps]
  cases hheard : heard w env s.store with
  | some ip =>
    obtain ⟨hsend, hpermitted, hip⟩ := (heard_eq_some hfind).mp hheard
    refine iff_of_true ?_ ?_
    · intro ip' hip'
      cases hip'
      exact (commit_cache hs.here hr hid).mpr ⟨hsend, hpermitted, by rw [hip]; rfl⟩
    · intro _ r' hr' hid'
      rw [huniq r' hr' hid', hip]
      refine ⟨hsend, fun ip' hip' => ?_⟩
      cases hip'
      exact hpermitted
  | none =>
    rw [Option.none_or]
    constructor
    · intro h hlast r' hr' hid'
      obtain ⟨ip, hip⟩ := Option.ne_none_iff_exists'.mp hlast
      obtain ⟨hsend, hpermitted, hor⟩ := (commit_cache hs.here hr hid).mp (h ip hip)
      rw [huniq r' hr' hid']
      refine ⟨hsend, fun ip' hip' => ?_⟩
      have hip' : resolveIpv4 (env r) r.destHost = some ip' := hip'
      rw [hip', Option.some_or] at hor
      cases hor
      exact hpermitted
    · intro h ip hip
      obtain ⟨hsend, hpermitted⟩ := h (Option.ne_none_iff_exists'.mpr ⟨ip, hip⟩) r hr hid
      refine (commit_cache hs.here hr hid).mpr ⟨hsend, hs.permitted ip hip, ?_⟩
      cases hlookup : resolveIpv4 (env r) r.destHost with
      | none => exact hcache ip hip
      | some ip' =>
        -- The host resolves to a permitted address, and the pass has found it.
        have hfound := (heard_eq_some hfind).mpr ⟨hsend, hpermitted ip' hlookup, hlookup⟩
        rw [hheard] at hfound
        cases hfound

/-! ## One step -/

/-- A request that leaves the rule with its host keeps the address. -/
theorem change_resolved {req : ForwardRequest} {defaultIface : Option String} (h : w.In st)
    (hchange : req.change defaultIface st = some st') (h' : w.In st') : st'.resolved w.id = st.resolved w.id := by
  cases req with
  | add who req now id =>
    cases hchange
    rfl
  | update id req =>
    simp only [ForwardRequest.change] at hchange
    split at hchange
    · cases hchange
    · unfold State.updateForward at hchange
      cases hfind : st.findForward id with
      | none =>
        rw [hfind] at hchange
        cases hchange
      | some old =>
        rw [hfind] at hchange
        cases hchange
        dsimp only
        split
        · next hhost =>
          refine if_neg fun hid => hhost ?_
          subst hid
          -- The rule that is watched is the one that changes, and it has its host still.
          obtain ⟨r, -, hfound, -, -, hr, -⟩ := h.findForward
          obtain ⟨r', hr', -, hid', -, hhost', -⟩ := h'.findForward
          cases hfind.symm.trans hfound
          cases (h.1.mem_replaceForward hfind).mp hr' with
          | inl hold => exact (hold.2 hid').elim
          | inr heq =>
            rw [hr, ← hhost', heq]
            rfl
        · rfl
  | remove id =>
    simp only [ForwardRequest.change] at hchange
    split at hchange
    · next hremoved =>
      cases hchange
      rw [(State.removeForward_true hremoved).2]
      refine if_neg fun hid => ?_
      obtain ⟨r', hr', -, hid', -⟩ := h'.findForward
      exact (State.mem_removeForward.mp hr').2 (hid'.trans hid)
    · cases hchange

theorem watching_hear {env : ForwardRule → HostEnv} (h : Watching w s) : Watching w (s.hear w env) := by
  obtain ⟨r, -, hfind, -, hiface, -, -⟩ := h.here.findForward
  cases hheard : heard w env s.store with
  | none =>
    have heq : s.hear w env = s := by
      unfold Sys.hear
      rw [hheard, Option.none_or]
    rw [heq]
    exact h
  | some ip =>
    obtain ⟨hsend, hpermitted, -⟩ := (heard_eq_some hfind).mp hheard
    have hlast : (s.hear w env).last = some ip := by
      unfold Sys.hear
      rw [hheard, Option.some_or]
    refine ⟨h.here, fun ip' hip' => ?_, fun _ i hi => ?_⟩
    · rw [hlast] at hip'
      cases hip'
      exact hpermitted
    · exact sendable_valid hsend i (hiface.symm ▸ hi)

section Steps

variable [DecidableEq τ] {hash : List ResolvedForward → τ} {env : ForwardRule → HostEnv} {saved : Bool}

/-- A tick goes by its hash. -/
theorem step_tick (h : step w hash s (.tick env saved) = some s') :
    s.lastHash = some (hash (resolveAll env s.store).resolved) ∧ s' = s.hear w env ∨
      s.lastHash ≠ some (hash (resolveAll env s.store).resolved) ∧
        s' = { s.commit w env saved with lastHash := some (hash (resolveAll env s.store).resolved) } := by
  unfold step at h
  dsimp only at h
  split at h
  · next hskip =>
    cases h
    exact .inl ⟨hskip, rfl⟩
  · next hpass =>
    cases h
    exact .inr ⟨hpass, rfl⟩

/-- A request changes the store, or nothing. -/
theorem step_request {req : ForwardRequest} {defaultIface : Option String}
    (h : step w hash s (.request req defaultIface saved) = some s') :
    (∃ st, req.change defaultIface s.store = some st ∧ w.In st ∧
      s' = { s with store := st, disk := if saved then st else s.disk }) ∨ s' = s := by
  unfold step at h
  dsimp only at h
  split at h
  · next st hchange =>
    split at h
    · next hin =>
      cases h
      exact .inl ⟨st, hchange, hin, rfl⟩
    · cases h
  · cases h
    exact .inr rfl

theorem step_restart (h : step w hash s .restart = some s') :
    w.In s.disk ∧ s' = { s with store := s.disk, lastHash := none } := by
  unfold step at h
  dsimp only at h
  split at h
  · next hin =>
    cases h
    exact ⟨hin, rfl⟩
  · cases h

theorem watching_step {e : Event} (h : Watching w s) (hstep : step w hash s e = some s') : Watching w s' := by
  have hcommit (env : ForwardRule → HostEnv) (saved : Bool) : Watching w (s.commit w env saved) := by
    obtain ⟨hhere, hpermitted, hiface⟩ : Watching w (s.hear w env) := watching_hear h
    exact ⟨hhere, hpermitted, hiface⟩
  cases e with
  | apply env saved =>
    cases hstep
    exact hcommit env saved
  | tick env saved =>
    cases step_tick hstep with
    | inl hskip =>
      rw [hskip.2]
      exact watching_hear h
    | inr hpass =>
      rw [hpass.2]
      exact ⟨(hcommit env saved).here, (hcommit env saved).permitted, (hcommit env saved).iface⟩
  | request req defaultIface saved =>
    cases step_request hstep with
    | inl hchanged =>
      obtain ⟨st, -, hin, rfl⟩ := hchanged
      exact ⟨hin, h.permitted, h.iface⟩
    | inr hsame =>
      rw [hsame]
      exact h
  | restart =>
    obtain ⟨hin, rfl⟩ := step_restart hstep
    exact ⟨hin, h.permitted, h.iface⟩

/-- A step keeps the address exactly under its condition. -/
theorem cached_step_iff {e : Event} (h : Watching w s) (hcache : Cached w s) (hstep : step w hash s e = some s') :
    Cached w s' ↔ Keeps w hash s e := by
  cases e with
  | apply env saved =>
    cases hstep
    exact commit_cached_iff saved h hcache
  | tick env saved =>
    unfold Keeps
    dsimp only
    -- the loop skips a pass whose hash it has seen, and the cache stays
    cases step_tick hstep with
    | inl hskip =>
      obtain ⟨hhash, rfl⟩ := hskip
      rw [if_pos hhash]
      have hhear : Cached w (s.hear w env) ↔
          ∀ ip ∈ (heard w env s.store).or s.last, s.store.resolved w.id = some ip := Iff.rfl
      rw [hhear]
      cases hheard : heard w env s.store with
      | none =>
        rw [Option.none_or]
        exact iff_of_true hcache (by simp)
      | some ip => rw [Option.some_or]
    | inr hpass =>
      obtain ⟨hhash, rfl⟩ := hpass
      rw [if_neg hhash]
      exact commit_cached_iff saved h hcache
  | request req defaultIface saved =>
    refine iff_of_true ?_ trivial
    cases step_request hstep with
    | inl hchanged =>
      obtain ⟨st, hchange, hin, rfl⟩ := hchanged
      intro ip hip
      rw [change_resolved h.here hchange hin]
      exact hcache ip hip
    | inr hsame =>
      rw [hsame]
      exact hcache
  | restart =>
    obtain ⟨-, rfl⟩ := step_restart hstep
    exact Iff.rfl

end Steps

/-! ## Runs -/

/-- An interface with an address, and a name that does not resolve. -/
def quietEnv : HostEnv where
  defaultRouteIface := some "eth0"
  lookup _ := none
  firstIpv4 _ := some (ipv4 192 0 2 1)
  ifaceHasIpv4 _ _ := false

/-- The rule falls back to the address found last exactly when the cache has it, unless it
needs no resolver. -/
theorem remembers_iff (h : Watching w s) : Remembers w s ↔ Literal w ∨ Cached w s := by
  obtain ⟨r, hr, -, hid, hiface, hhost, huniq⟩ := h.here.findForward
  constructor
  -- a host with no answer at all shows what the rule falls back to
  · intro hrem
    by_cases hlit : Literal w
    · exact .inl hlit
    refine .inr fun ip hip => ?_
    have hnone : resolveIpv4 quietEnv r.destHost = none := by
      unfold resolveIpv4
      dsimp only
      rw [hhost, Option.not_isSome_iff_eq_none.mp hlit]
      rfl
    have hsend : sendable quietEnv r := by
      have hvalid := h.iface (Option.ne_none_iff_exists'.mpr ⟨ip, hip⟩)
      unfold sendable ifaceOf
      rw [hiface]
      cases hw : w.iface with
      | none => cases r.source <;> rfl
      | some i =>
        dsimp only
        rw [if_pos (hvalid i hw)]
        cases r.source <;> rfl
    obtain ⟨rf, hone, hremote⟩ := hrem ip hip r hr hid quietEnv hnone hsend
    have hto : ResolvesTo (fun _ => quietEnv) s.store.resolvedIp r ip := ⟨rf, by rw [hid]; exact hone, hremote⟩
    obtain ⟨-, -, hor⟩ := resolvesTo_iff.mp hto
    rw [hnone, Option.none_or, hid] at hor
    exact hor
  · intro hor ip hip r' hr' hid' env hnone hsend
    rw [huniq r' hr' hid'] at hnone hsend ⊢
    cases hor with
    | inl hlit =>
      obtain ⟨lit, hlit⟩ := Option.isSome_iff_exists.mp hlit
      unfold resolveIpv4 at hnone
      dsimp only at hnone
      rw [hhost, hlit] at hnone
      cases hnone
    | inr hcache =>
      have hto : ResolvesTo (fun _ => env) s.store.resolvedIp r ip :=
        resolvesTo_iff.mpr ⟨hsend, h.permitted ip hip, by rw [hnone, Option.none_or, hid]; exact hcache ip hip⟩
      obtain ⟨rf, hone, hremote⟩ := hto
      rw [hid] at hone
      exact ⟨rf, hone, hremote⟩

/-- The daemon with the rule in its store, before its first pass in the run. -/
def Sys.start (store disk : State) (lastHash : Option τ) : Sys τ := ⟨store, disk, lastHash, none⟩

/-- In a run that starts with the rule in the store and keeps it there, the address that its
host had last is fallen back to after every step, exactly when every step keeps it in the
cache; a target that is an address needs none of this. -/
theorem always_remembers_iff [DecidableEq τ] (w : Watched) (hash : List ResolvedForward → τ) (store disk : State)
    (lastHash : Option τ) (es : List Event) {s' : Sys τ} (hin : w.In store)
    (hrun : Lts.run (step w hash) (.start store disk lastHash) es = some s') :
    Lts.Always (step w hash) (Remembers w) (.start store disk lastHash) es ↔
      Literal w ∨ Lts.StepsMeet (step w hash) (Keeps w hash) (.start store disk lastHash) es := by
  have hstart : Watching w (.start store disk lastHash : Sys τ) := ⟨hin, nofun, fun h => (h rfl).elim⟩
  have hcached : Cached w (.start store disk lastHash : Sys τ) := nofun
  have hwatch {pre : List Event} {t : Sys τ} (ht : Lts.run (step w hash) (.start store disk lastHash) pre = some t) :
      Watching w t :=
    Lts.run_invariant (fun _ _ _ => watching_step) hstart ht
  have hsteps : Lts.Always (step w hash) (Cached w) (.start store disk lastHash) es ↔
      Lts.StepsMeet (step w hash) (Keeps w hash) (.start store disk lastHash) es :=
    Lts.always_iff_stepsMeet_of_invariant
      (fun _ _ _ hs hc hstep => ⟨watching_step hs hstep, cached_step_iff hs hc hstep⟩) hstart hcached hrun
  rw [← hsteps]
  constructor
  · intro h
    by_cases hlit : Literal w
    · exact .inl hlit
    · refine .inr fun pre post t hsplit ht => ?_
      exact ((remembers_iff (hwatch ht)).mp (h pre post t hsplit ht)).resolve_left hlit
  · intro h pre post t hsplit ht
    exact (remembers_iff (hwatch ht)).mpr (h.imp_right fun hall => hall pre post t hsplit ht)

/-! ### An interface without its address -/

def webWatched : Watched := ⟨⟨0⟩, none, "web.example"⟩

/-- The name resolves. -/
def namedEnv : HostEnv := { quietEnv with lookup := fun _ => some (ipv4 198 51 100 1) }

/-- The name resolves, and the interface has lost its address. -/
def barrenEnv : HostEnv := { namedEnv with firstIpv4 := fun _ => none }

/-- The name resolves in the first pass and not in those after a restart. -/
theorem remembers_over_restart :
    Lts.Always (step webWatched id) (Remembers webWatched)
      (.start (webStore "web.example") (webStore "web.example") none)
      [.apply (fun _ => namedEnv) true, .restart, .tick (fun _ => quietEnv) true, .apply (fun _ => quietEnv) true] := by
  have hruns : (Lts.run (step webWatched id) (.start (webStore "web.example") (webStore "web.example") none)
      [.apply (fun _ => namedEnv) true, .restart, .tick (fun _ => quietEnv) true,
        .apply (fun _ => quietEnv) true]).isSome := by
    decide +kernel
  obtain ⟨s', hrun⟩ := Option.isSome_iff_exists.mp hruns
  exact (always_remembers_iff webWatched id (webStore "web.example") (webStore "web.example") none _
    (by decide +kernel) hrun).mpr (.inr (by decide +kernel))

/-- A pass that finds the interface without an IPv4 address forgets the address of the host. -/
theorem address_forgotten :
    ¬Lts.Always (step webWatched id) (Remembers webWatched)
      (.start (webStore "web.example") (webStore "web.example") none)
      [.apply (fun _ => namedEnv) true, .apply (fun _ => barrenEnv) true] := by
  intro h
  have hrem := h _ [] _ (List.append_nil _).symm rfl
  obtain ⟨rf, hone, -⟩ := hrem (ipv4 198 51 100 1) (by decide +kernel) (Forwarding.webRule "web.example")
    (List.mem_singleton_self _) rfl quietEnv (by decide +kernel) (by decide +kernel)
  have herror : (resolveOne quietEnv (Forwarding.webRule "web.example") none).isOk = false := by decide +kernel
  have hprev : resolveOne quietEnv (Forwarding.webRule "web.example") none = .ok rf := hone
  rw [hprev] at herror
  cases herror

end Ipgate.Fallback
