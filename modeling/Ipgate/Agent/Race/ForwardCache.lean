-- SUMMARY: When the addresses kept for port forwards belong to the hosts they have now.
import Ipgate.Agent.Race.Forward

/-!
# The cache of addresses

A request that gives a forward another target forgets the address kept for it. A
pass that took the rules before still carries the old address, and writes it back
over the whole cache when it is done.
-/

namespace Ipgate.Forwarding

open Net

namespace Sys

variable {τ : Type} (s : Sys τ)

/-- Every address in the cache was found for the host its rule has now. -/
def Current : Prop :=
  ∀ r ∈ s.store.forwards, ∀ ip, s.store.resolved r.id = some ip → (r.destHost, ip) ∈ s.answers

/-- Every address a pass carries was found for the host of the rule it took. -/
def Genuine : Prop :=
  ∀ f ∈ s.found, ∀ id ip, f.res.map id = some ip → ∃ r ∈ f.rules, r.id = id ∧ (r.destHost, ip) ∈ s.answers

/-- A pass writes only when the rules it carries addresses for have the hosts still
that they had when it took them. -/
def UpToDate : Event → Prop
  | .write w => ∀ f ∈ (s.pass w).bind Pass.found, ∀ r ∈ s.store.forwards, f.res.map r.id ≠ none →
      ∀ old ∈ f.rules, old.id = r.id → old.destHost = r.destHost
  | _ => True

instance : (e : Event) → Decidable (s.UpToDate e)
  | .write w => inferInstanceAs (Decidable (∀ f ∈ (s.pass w).bind Pass.found, ∀ r ∈ s.store.forwards,
      f.res.map r.id ≠ none → ∀ old ∈ f.rules, old.id = r.id → old.destHost = r.destHost))
  | .call _ | .reject _ | .change _ _ _ | .look _ _ | .land _ _ => .isTrue trivial

end Sys

section Cache

variable {τ : Type} {hash : List ResolvedForward → τ} {s s' : Sys τ} {e : Event}
variable {r : ForwardRequest} {st st' : State} {defaultIface : Option String} {A : List (String × BitVec 32)}

/-- A request keeps the addresses of rules that keep their hosts, and no others. -/
theorem change_current (h : r.change defaultIface st = some st') (hfresh : ∀ id ∈ r.draws, st.resolved id = none)
    (hst : ∀ r ∈ st.forwards, ∀ ip, st.resolved r.id = some ip → (r.destHost, ip) ∈ A) :
    ∀ r ∈ st'.forwards, ∀ ip, st'.resolved r.id = some ip → (r.destHost, ip) ∈ A := by
  intro rule hrule ip hip
  cases r with
  | add who req now id =>
    cases h
    rcases State.mem_addForward hrule with hold | rfl
    · exact hst rule hold ip hip
    · have hnone := hfresh id (List.mem_singleton_self _)
      exact absurd (hip.symm.trans hnone) nofun
  | update id req =>
    simp only [ForwardRequest.change] at h
    split at h
    · cases h
    · obtain ⟨old, hold, rfl, hmem, hresolved⟩ := State.updateForward_eq h
      rw [hresolved] at hip
      split at hip
      -- the host stays, so an address kept is one of it
      · next hhost =>
        obtain ⟨hne, hip⟩ := State.dropResolved_eq_some.mp hip
        rcases hmem rule hrule with hkept | rfl
        · exact hst rule hkept ip hip
        · exact (hne rfl).elim
      -- the host changed: the cached address of this rule is gone
      · next hhost =>
        rcases hmem rule hrule with hkept | rfl
        · exact hst rule hkept ip hip
        · have hsame : old.destHost = req.destHost := not_not.mp hhost
          have hmem := hst old hold ip hip
          rw [hsame] at hmem
          exact hmem
  | remove id =>
    simp only [ForwardRequest.change] at h
    split at h
    · next hremoved =>
      cases h
      rw [(State.removeForward_true hremoved).2] at hip
      exact hst rule (State.mem_removeForward.mp hrule).1 ip (State.dropResolved_eq_some.mp hip).2
    · cases h

/-- An address a pass finds is an answer of this pass, or was in the cache. -/
theorem look_genuine {env : ForwardRule → HostEnv} (hcurrent : s.Current) {id : ForwardId} {ip : BitVec 32}
    (h : (s.look env).res.map id = some ip) :
    ∃ r ∈ s.store.forwards, r.id = id ∧ (r.destHost, ip) ∈ lookups env s.store ++ s.answers := by
  obtain ⟨rule, hrule, hid, rf, hone, rfl⟩ := resolveAll_map h
  refine ⟨rule, hrule, hid, List.mem_append.mpr ?_⟩
  rcases resolveOne_remoteIp hone with hanswer | ⟨-, hprev⟩
  · refine .inl (List.mem_filterMap.mpr ⟨rule, hrule, ?_⟩)
    have hone' : resolveOne (env rule) rule (s.store.resolved rule.id) = .ok rf := hone
    rw [hone', hanswer]
  · exact .inr (hcurrent rule hrule _ hprev)

theorem current_step (hcurrent : s.Current) (hgenuine : s.Genuine) (hdate : s.UpToDate e) (h : Moves hash s e s') :
    s'.Current := by
  intro rule hrule ip hip
  apply h.answers
  cases h.store with
  | kept hstore hnot =>
    rw [hstore] at hrule hip
    exact hcurrent rule hrule ip hip
  | changed hfresh hstore hused hnot =>
    exact change_current hstore (fun id hid => (hfresh id hid).2) hcurrent rule hrule ip hip
  | @written w f he hpass hstore =>
    subst he
    rw [hstore] at hrule hip
    -- The pass carries an answer for the host the rule had, which is the host it has.
    obtain ⟨old, hold, hid, hmem⟩ := hgenuine f (found_of_pass hpass rfl) rule.id ip hip
    have hf : f ∈ (s.pass w).bind Pass.found := by
      rw [hpass]
      rfl
    have hcarried : f.res.map rule.id ≠ none := Option.ne_none_iff_exists'.mpr ⟨ip, hip⟩
    rw [hdate f hf rule hrule hcarried old hold hid] at hmem
    exact hmem

theorem genuine_step (hcurrent : s.Current) (hgenuine : s.Genuine) (h : Moves hash s e s') : s'.Genuine := by
  intro f hf id ip hip
  rcases h.found hf with hold | ⟨w, env, -, rfl, hanswers⟩
  · obtain ⟨r, hr, hid, hmem⟩ := hgenuine f hold id ip hip
    exact ⟨r, hr, hid, h.answers hmem⟩
  · rw [hanswers]
    exact look_genuine hcurrent hip

theorem current_start (store : State) (table : List ResolvedForward) : (Sys.start store table : Sys τ).Current := by
  intro r hr ip hip
  refine List.mem_filterMap.mpr ⟨r, hr, ?_⟩
  rw [show store.resolved r.id = some ip from hip]
  rfl

theorem genuine_start (store : State) (table : List ResolvedForward) : (Sys.start store table : Sys τ).Genuine := by
  intro f hf
  cases hf

end Cache

/-- In every run whose passes write while the rules they carry addresses for have their
hosts still, every address in the cache was found for the host its rule has, and every
address a pass falls back to too. -/
theorem cache_stays_current {τ : Type} [DecidableEq τ] (hash : List ResolvedForward → τ) (store : State)
    (table : List ResolvedForward) (es : List Event)
    (hmeet : Lts.StepsMeet (Sys.step hash) Sys.UpToDate (.start store table) es) :
    Lts.Always (Sys.step hash) (fun s => s.Current ∧ s.Genuine) (.start store table) es := by
  refine Lts.always_of_stepsMeet (fun s hinv => hinv) ?_ ⟨current_start store table, genuine_start store table⟩ hmeet
  intro s e s' hinv hdate hstep
  have hmoves := step_moves hstep
  exact ⟨current_step hinv.1 hinv.2 hdate hmoves, genuine_step hinv.1 hinv.2 hmoves⟩

/-! ### An address of the former host -/

/-- Two names with an address each. -/
def namesEnv : HostEnv :=
  { plainEnv with lookup := fun name =>
      if name = "a.example" then some (ipv4 198 51 100 1)
      else if name = "b.example" then some (ipv4 198 51 100 2) else none }

/-- A request changes the target between two passes of the loop. -/
theorem cache_current_between :
    Lts.Always (Sys.step id) (fun s => s.Current ∧ s.Genuine) (.start (webStore "a.example") [])
      [.look .loop fun _ => namesEnv, .land .loop true, .write .loop,
        .call (.update ⟨0⟩ (webRequest "b.example")), .change 0 none true,
        .look (.call 0) fun _ => namesEnv, .land (.call 0) true, .write (.call 0),
        .look .loop fun _ => namesEnv, .land .loop true, .write .loop] :=
  cache_stays_current id (webStore "a.example") [] _ (by decide +kernel)

/-- A request changes the target while the loop installs the old one; what the loop
writes then is an address of the former host. -/
theorem stale_address_returns : ∃ s : Sys (List ResolvedForward),
    Lts.run (Sys.step id) (.start (webStore "a.example") [])
      [.look .loop fun _ => namesEnv, .land .loop true, .call (.update ⟨0⟩ (webRequest "b.example")),
        .change 0 none true, .write .loop] = some s ∧ ¬s.Current := by
  refine ⟨_, rfl, fun h => ?_⟩
  have hmem := h (webRule "b.example") (List.mem_singleton_self _) (ipv4 198 51 100 1) (by decide +kernel)
  revert hmem
  decide +kernel

end Ipgate.Forwarding
