-- SUMMARY: When a removed port forward stays removed, and the pass under way that brings it back.
import Ipgate.Agent.Race.Forward

/-!
# Removed forwards

A request to remove a forward takes the rule out of the store and makes a pass of
its own. A pass that took the rules before still carries the removed one, and when
it comes to install its table and to write its addresses, it brings it back.
-/

namespace Ipgate.Forwarding

open Net

/-- No pass under way carries the rule that is to be removed. -/
def ForwardRequest.Gone {τ : Type} (s : Sys τ) : ForwardRequest → Prop
  | .remove id => ∀ f ∈ s.found, f.res.map id = none
  | _ => True

instance {τ : Type} (s : Sys τ) : (r : ForwardRequest) → Decidable (r.Gone s)
  | .remove id => inferInstanceAs (Decidable (∀ f ∈ s.found, f.res.map id = none))
  | .add .. | .update .. => .isTrue trivial

namespace Sys

variable {τ : Type} (s : Sys τ)

/-- The request to remove the rule has returned `Ok`. -/
def Removed (id : ForwardId) : Prop := ⟨.remove id, .returned true⟩ ∈ s.calls

/-- The event installs rules computed from a removed one. -/
def Reinstalls (e : Event) : Prop :=
  ∃ w f id, e = .land w true ∧ s.pass w = some (.resolved f) ∧ s.Removed id ∧ f.res.map id ≠ none

/-- No removed rule is in the cache. -/
def Forgotten : Prop := ∀ id, s.Removed id → s.store.resolved id = none

/-- A request to remove a rule returns only when no pass under way carries the rule. -/
def Settled : Event → Prop
  | .write (.call i) => ∀ c ∈ s.calls[i]?, c.req.Gone s
  | _ => True

instance : (e : Event) → Decidable (s.Settled e)
  | .write (.call i) => inferInstanceAs (Decidable (∀ c ∈ s.calls[i]?, c.req.Gone s))
  | .write .loop | .call _ | .reject _ | .change _ _ _ | .look _ _ | .land _ _ => .isTrue trivial

/-! ## The invariant -/

/-- A request to remove a rule that has taken it out of the store and gone on. -/
def Removing (id : ForwardId) : Prop := ∃ c ∈ s.calls, c.req = .remove id ∧
  (c.pass.isSome ∨ c.phase = .returned true)

structure RemovalInv : Prop where
  used : ∀ r ∈ s.store.forwards, r.id ∈ s.used
  gone : ∀ id, s.Removing id → id ∈ s.used ∧ ∀ r ∈ s.store.forwards, r.id ≠ id
  carried : ∀ id, s.Removed id → ∀ f ∈ s.found, f.res.map id = none
  forgotten : s.Forgotten

end Sys

section Removal

variable {τ : Type} {hash : List ResolvedForward → τ} {s s' : Sys τ} {e : Event} {id : ForwardId}

theorem Sys.Removed.removing (h : s.Removed id) : s.Removing id := ⟨_, h, rfl, .inr rfl⟩

/-! ## What a request does to the rules -/

variable {r : ForwardRequest} {st st' : State} {defaultIface : Option String} {rule : ForwardRule}

/-- A rule in the store afterwards was there under its identifier, or has a drawn one. -/
theorem change_id (h : r.change defaultIface st = some st') (hrule : rule ∈ st'.forwards) :
    (∃ old ∈ st.forwards, old.id = rule.id) ∨ rule.id ∈ r.draws := by
  cases r with
  | add who req now id =>
    cases h
    rcases State.mem_addForward hrule with hold | rfl
    · exact .inl ⟨rule, hold, rfl⟩
    · exact .inr (List.mem_singleton_self _)
  | update id req =>
    simp only [ForwardRequest.change] at h
    split at h
    · cases h
    · obtain ⟨old, hold, -, hmem, -⟩ := State.updateForward_eq h
      rcases hmem rule hrule with hkept | rfl
      · exact .inl ⟨rule, hkept, rfl⟩
      · exact .inl ⟨old, hold, rfl⟩
  | remove id =>
    simp only [ForwardRequest.change] at h
    split at h
    · cases h
      exact .inl ⟨rule, (State.mem_removeForward.mp hrule).1, rfl⟩
    · cases h

/-- A request forgets addresses and adds none. -/
theorem change_resolved (h : r.change defaultIface st = some st') (hid : st'.resolved id ≠ none) :
    st.resolved id ≠ none := by
  cases r with
  | add who req now id =>
    cases h
    exact hid
  | update fid req =>
    simp only [ForwardRequest.change] at h
    split at h
    · cases h
    · obtain ⟨old, -, -, -, hresolved⟩ := State.updateForward_eq h
      rw [hresolved] at hid
      split at hid
      · exact State.dropResolved_ne_none hid
      · exact hid
  | remove fid =>
    simp only [ForwardRequest.change] at h
    split at h
    · next hremoved =>
      cases h
      rw [(State.removeForward_true hremoved).2] at hid
      exact State.dropResolved_ne_none hid
    · cases h

/-! ## What a step does -/

/-- A rule in the store after a step was there under its identifier, or has a new one. -/
theorem Moves.forwards (h : Moves hash s e s') (hrule : rule ∈ s'.store.forwards) :
    (∃ old ∈ s.store.forwards, old.id = rule.id) ∨ rule.id ∉ s.used ∧ rule.id ∈ s'.used := by
  cases h.store with
  | kept hstore hnot => exact .inl ⟨rule, hstore ▸ hrule, rfl⟩
  | changed hfresh hstore hused hnot =>
    rcases change_id hstore hrule with hold | hdrawn
    · exact .inl hold
    · exact .inr ⟨(hfresh _ hdrawn).1, hused ▸ List.mem_append_left _ hdrawn⟩
  | written he hpass hstore =>
    rw [hstore] at hrule
    exact .inl ⟨rule, hrule, rfl⟩

/-- A pass that writes replaces the cache by what it carries; nothing else adds to it. -/
theorem Moves.resolved (h : Moves hash s e s') :
    (∃ f ∈ s.found, s'.store.resolved = f.res.map) ∨
      (∀ w, e ≠ .write w) ∧ ∀ id, s'.store.resolved id ≠ none → s.store.resolved id ≠ none := by
  cases h.store with
  | kept hstore hnot => exact .inr ⟨hnot, fun id hid => hstore ▸ hid⟩
  | changed hfresh hstore hused hnot => exact .inr ⟨hnot, fun id hid => change_resolved hstore hid⟩
  | written he hpass hstore => exact .inl ⟨_, found_of_pass hpass rfl, by rw [hstore]; rfl⟩

theorem removing_of_pass {c : Call} {i : ℕ} {p : Pass} (hc : s.calls[i]? = some c) (hpass : c.pass = some p)
    (hreq : c.req = .remove id) : s.Removing id :=
  ⟨c, List.mem_of_getElem? hc, hreq, .inl (by rw [hpass]; rfl)⟩

/-- A request to remove a rule was under way before, or has just taken the rule out. -/
theorem Moves.removing (h : Moves hash s e s') (hr : s'.Removing id) : s.Removing id ∨
    (s.store.removeForward id).1 = true ∧ s'.store = (s.store.removeForward id).2 := by
  obtain ⟨c, hc, hreq, hphase⟩ := hr
  cases h with
  | called r =>
    rcases List.mem_append.mp hc with hold | hnew
    · exact .inl ⟨c, hold, hreq, hphase⟩
    · obtain rfl := List.mem_singleton.mp hnew
      rcases hphase with hpass | hreturned
      · cases hpass
      · cases hreturned
  | rejected hc₀ | failed saved hc₀ =>
    rcases mem_calls_setPhase hc with hold | ⟨c₀, -, rfl⟩
    · exact .inl ⟨c, hold, hreq, hphase⟩
    -- a request that has just been put, or that is over, has no pass under way
    · rcases hphase with hpass | hreturned
      · cases hpass
      · cases hreturned
  | changed saved hc₀ hfresh hstore =>
    rcases mem_calls_setPhase (s := s) hc with hold | ⟨c₀, hi, rfl⟩
    · exact .inl ⟨c, hold, hreq, hphase⟩
    · rw [hc₀] at hi
      cases hi
      obtain rfl := hreq
      simp only [ForwardRequest.change] at hstore
      split at hstore
      · next hremoved =>
        cases hstore
        -- the lock section of the removal itself
        exact .inr ⟨hremoved, rfl⟩
      · cases hstore
  | skipped env hpass hskip => exact .inl ⟨c, hc, hreq, hphase⟩
  | looked env hpass hskip =>
    rcases mem_calls_setPass (s := s.hear env) hpass hc with hold | ⟨i, c₀, -, hc₀, hready, rfl⟩
    · exact .inl ⟨c, hold, hreq, hphase⟩
    · exact .inl (removing_of_pass hc₀ hready hreq)
  | landed hpass =>
    rcases mem_calls_setPass (s := s) hpass hc with hold | ⟨i, c₀, -, hc₀, hresolved, rfl⟩
    · exact .inl ⟨c, hold, hreq, hphase⟩
    · exact .inl (removing_of_pass hc₀ hresolved hreq)
  | refused hpass =>
    rcases mem_calls_finish hpass hc with hold | ⟨i, c₀, -, hc₀, hresolved, rfl⟩
    · exact .inl ⟨c, hold, hreq, hphase⟩
    · exact .inl (removing_of_pass hc₀ hresolved hreq)
  | written hpass =>
    rcases mem_calls_finish (s := s) hpass hc with hold | ⟨i, c₀, -, hc₀, hlanded, rfl⟩
    · exact .inl ⟨c, hold, hreq, hphase⟩
    · exact .inl (removing_of_pass hc₀ hlanded hreq)

/-- A request to remove a rule had returned before, or returns now. -/
theorem Moves.removed (h : Moves hash s e s') (hr : s'.Removed id) : s.Removed id ∨
    ∃ i c, e = .write (.call i) ∧ s.calls[i]? = some c ∧ c.req = .remove id := by
  cases h with
  | called r =>
    rcases List.mem_append.mp hr with hold | hnew
    · exact .inl hold
    · exact absurd (congrArg Call.phase (List.mem_singleton.mp hnew)) nofun
  | rejected hc₀ | failed saved hc₀ =>
    rcases mem_calls_setPhase hr with hold | ⟨c₀, -, heq⟩
    · exact .inl hold
    · exact absurd (congrArg Call.phase heq) nofun
  | changed saved hc₀ hfresh hstore =>
    rcases mem_calls_setPhase (s := s) hr with hold | ⟨c₀, -, heq⟩
    · exact .inl hold
    · cases saved <;> exact absurd (congrArg Call.phase heq) nofun
  | skipped env hpass hskip => exact .inl hr
  | looked env hpass hskip =>
    rcases mem_calls_setPass (s := s.hear env) hpass hr with hold | ⟨i, c₀, -, -, -, heq⟩
    · exact .inl hold
    · exact absurd (congrArg Call.phase heq) nofun
  | landed hpass =>
    rcases mem_calls_setPass (s := s) hpass hr with hold | ⟨i, c₀, -, -, -, heq⟩
    · exact .inl hold
    · exact absurd (congrArg Call.phase heq) nofun
  | refused hpass =>
    rcases mem_calls_finish hpass hr with hold | ⟨i, c₀, -, -, -, heq⟩
    · exact .inl hold
    · exact absurd (congrArg Call.phase heq) nofun
  | written hpass =>
    rcases mem_calls_finish (s := s) hpass hr with hold | ⟨i, c₀, rfl, hc₀, -, heq⟩
    · exact .inl hold
    · exact .inr ⟨i, c₀, rfl, hc₀, (congrArg Call.req heq).symm⟩

/-! ## The invariant is kept -/

/-- What a pass finds is in the store. -/
theorem look_map {env : ForwardRule → HostEnv} (h : (s.look env).res.map id ≠ none) :
    ∃ r ∈ s.store.forwards, r.id = id := by
  obtain ⟨ip, hip⟩ := Option.ne_none_iff_exists'.mp h
  obtain ⟨rule, hrule, hid, -⟩ := resolveAll_map hip
  exact ⟨rule, hrule, hid⟩

theorem removal_step (hinv : s.RemovalInv) (hsettled : s.Settled e) (h : Moves hash s e s') : s'.RemovalInv := by
  -- Nothing under way carries a rule when the request to remove it returns.
  have hclear (i : ℕ) (c : Call) (id : ForwardId) (he : e = .write (.call i)) (hc : s.calls[i]? = some c)
      (hreq : c.req = .remove id) : ∀ f ∈ s.found, f.res.map id = none := by
    subst he
    have hgone := hsettled c hc
    rw [hreq] at hgone
    exact hgone
  have hcarried (id : ForwardId) (hr : s'.Removed id) : ∀ f ∈ s.found, f.res.map id = none := by
    rcases h.removed hr with hold | ⟨i, c, he, hc, hreq⟩
    · exact hinv.carried id hold
    · exact hclear i c id he hc hreq
  refine ⟨fun rule hrule => ?_, fun id hr => ?_, fun id hr f hf => ?_, fun id hr => ?_⟩
  · rcases h.forwards hrule with ⟨old, hold, hid⟩ | ⟨-, hnew⟩
    · exact h.used (hid ▸ hinv.used old hold)
    · exact hnew
  · rcases h.removing hr with hold | ⟨hremoved, hstore⟩
    · obtain ⟨hused, hgone⟩ := hinv.gone id hold
      refine ⟨h.used hused, fun rule hrule heq => ?_⟩
      rcases h.forwards hrule with ⟨old, hmem, hid⟩ | ⟨hnew, -⟩
      · exact hgone old hmem (hid.trans heq)
      · exact hnew (heq ▸ hused)
    · obtain ⟨rule, hrule, hid⟩ := (State.removeForward_true hremoved).1
      refine ⟨h.used (hid ▸ hinv.used rule hrule), fun rule hrule => ?_⟩
      rw [hstore] at hrule
      exact (State.mem_removeForward.mp hrule).2
  · rcases h.found hf with hold | ⟨w, env, rfl, rfl, -⟩
    · exact hcarried id hr f hold
    · rcases h.removed hr with hold | ⟨i, c, he, -⟩
      · by_contra hne
        obtain ⟨rule, hrule, hid⟩ := look_map hne
        exact (hinv.gone id hold.removing).2 rule hrule hid
      · cases he
  · rcases h.resolved with ⟨f, hf, hstore⟩ | ⟨hnot, hmono⟩
    · rw [hstore]
      exact hcarried id hr f hf
    · rcases h.removed hr with hold | ⟨i, c, he, -⟩
      · by_contra hne
        exact hmono id hne (hinv.forgotten id hold)
      · exact (hnot _ he).elim

theorem removal_start (store : State) (table : List ResolvedForward) : (Sys.start store table : Sys τ).RemovalInv where
  used r hr := List.mem_map_of_mem hr
  gone := by
    rintro id ⟨c, hc, -⟩
    cases hc
  carried := by
    intro id hr
    cases hr
  forgotten := by
    intro id hr
    cases hr

theorem not_reinstalls (hinv : s.RemovalInv) : ¬s.Reinstalls e := by
  rintro ⟨w, f, id, rfl, hpass, hr, hne⟩
  exact hne (hinv.carried id hr f (found_of_pass hpass rfl))

end Removal

/-- In every run whose requests to remove a rule return when no pass under way carries
it, no pass installs a removed rule, and no removed rule is in the cache. -/
theorem removed_stays_removed {τ : Type} [DecidableEq τ] (hash : List ResolvedForward → τ) (store : State)
    (table : List ResolvedForward) (es : List Event)
    (hmeet : Lts.StepsMeet (Sys.step hash) Sys.Settled (.start store table) es) :
    Lts.StepsMeet (Sys.step hash) (fun s e => ¬s.Reinstalls e) (.start store table) es ∧
      Lts.Always (Sys.step hash) Sys.Forgotten (.start store table) es := by
  have hstep : ∀ s e s', Sys.RemovalInv s → Sys.Settled s e → Sys.step hash s e = some s' → Sys.RemovalInv s' :=
    fun s e s' hinv hsettled h => removal_step hinv hsettled (step_moves h)
  constructor
  · exact hmeet.of_invariant hstep (fun s e hinv _ => not_reinstalls hinv) (removal_start store table)
  · exact Lts.always_of_stepsMeet (fun s hinv => hinv.forgotten) hstep (removal_start store table) hmeet

/-! ### A pass that comes late -/

/-- A request removes the rule while nothing else is under way. -/
def removeWeb : List Event :=
  [.call (.remove ⟨0⟩), .change 0 none true, .look (.call 0) fun _ => plainEnv, .land (.call 0) true,
    .write (.call 0)]

theorem removed_alone :
    Lts.StepsMeet (Sys.step id) (fun s e => ¬s.Reinstalls e) (.start (webStore "198.51.100.1") []) removeWeb ∧
      Lts.Always (Sys.step id) Sys.Forgotten (.start (webStore "198.51.100.1") []) removeWeb :=
  removed_stays_removed id (webStore "198.51.100.1") [] removeWeb (by decide +kernel)

/-- The loop takes the rules before the request and installs them after it: the
removed rule is in the table and in the cache again. -/
theorem removed_forward_returns : ∃ s : Sys (List ResolvedForward),
    Lts.run (Sys.step id) (.start (webStore "198.51.100.1") []) (.look .loop (fun _ => plainEnv) :: removeWeb) =
        some s ∧
      s.Reinstalls (.land .loop true) ∧
      ∃ s', Lts.run (Sys.step id) s [.land .loop true, .write .loop] = some s' ∧ ¬s'.Forgotten := by
  have hremoved : (⟨.remove ⟨0⟩, .returned true⟩ : Call) ∈ [(⟨.remove ⟨0⟩, .returned true⟩ : Call)] :=
    List.mem_singleton_self _
  refine ⟨_, rfl, ⟨.loop, _, ⟨0⟩, rfl, rfl, hremoved, by decide +kernel⟩, _, rfl, fun h => ?_⟩
  have hnone := h ⟨0⟩ hremoved
  revert hnone
  decide +kernel

end Ipgate.Forwarding
