-- SUMMARY: Requests for port forwards and the resolve loop step by step, in any order, and when a tick of the loop repairs the NAT table.
import Ipgate.Lib.Lts
import Ipgate.Lib.Pool
import Ipgate.Agent.Api.Forwards

/-!
# Forward requests against the resolve loop

A request changes the rules under the store lock and then makes a pass: it takes
the rules under the lock, resolves them, installs the table, and writes the
addresses back under the lock. The loop makes the same passes over and over, and
skips those that resolve to what it installed last. Nothing keeps passes apart.
-/

namespace Ipgate.Forwarding

open Net

/-! ## Requests -/

inductive ForwardRequest where
  | add (who : DeviceId) (req : AddForwardRequest) (now : DateTime) (id : ForwardId)
  | update (id : ForwardId) (req : AddForwardRequest)
  | remove (id : ForwardId)
  deriving DecidableEq

/-- The section under the store lock: the store it leaves, unless it fails. -/
def ForwardRequest.change (defaultIface : Option String) (s : State) : ForwardRequest → Option State
  | .add who req now id => some (s.addForward req who now id).2
  | .update id req =>
    if overlapsOther s defaultIface id req then none else (s.updateForward id req).map Prod.snd
  | .remove id => if (s.removeForward id).1 then some (s.removeForward id).2 else none

/-- The identifiers a request draws. -/
def ForwardRequest.draws : ForwardRequest → List ForwardId
  | .add _ _ _ id => [id]
  | _ => []

/-! ## Passes -/

/-- What a pass has taken from the store, and what it made of it. -/
structure Found where
  rules : List ForwardRule
  res : Resolution

inductive Pass where
  | ready
  | resolved (f : Found)
  | landed (f : Found)

def Pass.found : Pass → Option Found
  | .ready => none
  | .resolved f => some f
  | .landed f => some f

inductive Phase where
  | called
  | running (p : Pass)
  | returned (ok : Bool)

/-- A request under way. -/
structure Call where
  req : ForwardRequest
  phase : Phase

def Call.pass (c : Call) : Option Pass :=
  match c.phase with
  | .running p => some p
  | _ => none

/-- Who makes a pass. -/
inductive Who where
  | loop
  | call (i : ℕ)
  deriving DecidableEq

/-! ## Steps -/

/-- The hash of the loop is of type `τ`. -/
structure Sys (τ : Type) where
  store : State
  /-- The forwards in the NAT table of the kernel. -/
  table : List ResolvedForward
  lastHash : Option τ
  loop : Pass
  calls : List Call
  /-- The identifiers drawn so far. -/
  used : List ForwardId
  /-- The addresses that hosts have resolved to. -/
  answers : List (String × BitVec 32)
  /-- Who has installed what, the last first. -/
  installs : List (Who × List ResolvedForward)

inductive Event where
  | call (r : ForwardRequest)
  /-- A request does not get past its checks. -/
  | reject (i : ℕ)
  | change (i : ℕ) (defaultIface : Option String) (saved : Bool)
  | look (w : Who) (env : ForwardRule → HostEnv)
  | land (w : Who) (ok : Bool)
  | write (w : Who)

/-- The hosts that resolve in a pass, with their addresses. -/
def lookups (env : ForwardRule → HostEnv) (s : State) : List (String × BitVec 32) :=
  s.forwards.filterMap fun r =>
    match resolveOne (env r) r (s.resolved r.id), resolveIpv4 (env r) r.destHost with
    | .ok _, some ip => some (r.destHost, ip)
    | _, _ => none

namespace Sys

variable {τ : Type}

/-- The daemon has come up, with some rules and some table. What is in the cache was
resolved before. -/
def start (store : State) (table : List ResolvedForward) : Sys τ where
  store := store
  table := table
  lastHash := none
  loop := .ready
  calls := []
  used := store.forwards.map ForwardRule.id
  answers := store.forwards.filterMap fun r => (store.resolved r.id).map fun ip => (r.destHost, ip)
  installs := []

def pass (s : Sys τ) : Who → Option Pass
  | .loop => some s.loop
  | .call i => s.calls[i]?.bind Call.pass

def setPhase (s : Sys τ) (i : ℕ) (p : Phase) : Sys τ :=
  { s with calls := s.calls.modify i fun c => { c with phase := p } }

def setPass (s : Sys τ) (p : Pass) : Who → Sys τ
  | .loop => { s with loop := p }
  | .call i => s.setPhase i (.running p)

/-- A pass is over; the loop remembers what it has installed. -/
def finish (s : Sys τ) (h : Option τ) (ok : Bool) : Who → Sys τ
  | .loop => { s with loop := .ready, lastHash := h }
  | .call i => s.setPhase i (.returned ok)

/-- What the passes under way carry. -/
def found (s : Sys τ) : List Found := (s.loop :: s.calls.filterMap Call.pass).filterMap Pass.found

/-- The identifiers are new. -/
def Fresh (s : Sys τ) (ids : List ForwardId) : Prop := ∀ id ∈ ids, id ∉ s.used ∧ s.store.resolved id = none

instance (s : Sys τ) (ids : List ForwardId) : Decidable (s.Fresh ids) :=
  inferInstanceAs (Decidable (∀ id ∈ ids, _))

def change (s : Sys τ) (i : ℕ) (r : ForwardRequest) (defaultIface : Option String) (saved : Bool) : Sys τ :=
  match r.change defaultIface s.store with
  | none => s.setPhase i (.returned false)
  | some store =>
    { s.setPhase i (if saved then .running .ready else .returned false) with
      store := store, used := r.draws ++ s.used }

def look (s : Sys τ) (env : ForwardRule → HostEnv) : Found := ⟨s.store.forwards, resolveAll env s.store⟩

def hear (s : Sys τ) (env : ForwardRule → HostEnv) : Sys τ :=
  { s with answers := lookups env s.store ++ s.answers }

def land (s : Sys τ) (w : Who) (f : Found) : Sys τ :=
  { s.setPass (.landed f) w with table := f.res.resolved, installs := (w, f.res.resolved) :: s.installs }

def write (s : Sys τ) (w : Who) (f : Found) (h : τ) : Sys τ :=
  { s.finish (some h) true w with store := s.store.setResolved f.res.map }

variable [DecidableEq τ] (hash : List ResolvedForward → τ)

/-- The loop leaves a pass that resolves to what it installed last. -/
def Skips (s : Sys τ) (w : Who) (env : ForwardRule → HostEnv) : Prop :=
  w = .loop ∧ s.lastHash = some (hash (s.look env).res.resolved)

instance (s : Sys τ) (w : Who) (env : ForwardRule → HostEnv) : Decidable (s.Skips hash w env) :=
  inferInstanceAs (Decidable (_ ∧ _))

def step (s : Sys τ) : Event → Option (Sys τ)
  | .call r => some { s with calls := s.calls ++ [⟨r, .called⟩] }
  | .reject i =>
    match s.calls[i]? with
    | some ⟨_, .called⟩ => some (s.setPhase i (.returned false))
    | _ => none
  | .change i defaultIface saved =>
    match s.calls[i]? with
    | some ⟨r, .called⟩ => if s.Fresh r.draws then some (s.change i r defaultIface saved) else none
    | _ => none
  | .look w env =>
    match s.pass w with
    | some .ready => some (if s.Skips hash w env then s.hear env else (s.hear env).setPass (.resolved (s.look env)) w)
    | _ => none
  | .land w ok =>
    match s.pass w with
    | some (.resolved f) => some (if ok then s.land w f else s.finish s.lastHash false w)
    | _ => none
  | .write w =>
    match s.pass w with
    | some (.landed f) => some (s.write w f (hash f.res.resolved))
    | _ => none

end Sys

section Fields

variable {τ : Type} (s : Sys τ) (p : Pass) (h : Option τ) (ok : Bool) (w : Who)

@[simp] theorem Sys.setPass_store : (s.setPass p w).store = s.store := by cases w <;> rfl

@[simp] theorem Sys.setPass_used : (s.setPass p w).used = s.used := by cases w <;> rfl

@[simp] theorem Sys.setPass_answers : (s.setPass p w).answers = s.answers := by cases w <;> rfl

@[simp] theorem Sys.finish_store : (s.finish h ok w).store = s.store := by cases w <;> rfl

@[simp] theorem Sys.finish_used : (s.finish h ok w).used = s.used := by cases w <;> rfl

@[simp] theorem Sys.finish_answers : (s.finish h ok w).answers = s.answers := by cases w <;> rfl

variable (f : Found) (env : ForwardRule → HostEnv)

@[simp] theorem Sys.hear_store : (s.hear env).store = s.store := rfl

@[simp] theorem Sys.hear_used : (s.hear env).used = s.used := rfl

@[simp] theorem Sys.land_store : (s.land w f).store = s.store := by simp [Sys.land]

@[simp] theorem Sys.land_used : (s.land w f).used = s.used := by simp [Sys.land]

@[simp] theorem Sys.land_answers : (s.land w f).answers = s.answers := by simp [Sys.land]

end Fields

/-! ## The passes under way -/

section Passes

variable {τ : Type} {s : Sys τ} {w : Who} {i : ℕ} {p : Pass} {q : Phase} {f : Found}

theorem mem_calls_setPhase {c : Call} (h : c ∈ (s.setPhase i q).calls) :
    c ∈ s.calls ∨ ∃ c₀, s.calls[i]? = some c₀ ∧ c = { c₀ with phase := q } :=
  Pool.mem_modify h

/-- Moving a pass on moves the call that makes it. -/
theorem mem_calls_setPass {p₀ : Pass} {c : Call} (hpass : s.pass w = some p₀) (h : c ∈ (s.setPass p w).calls) :
    c ∈ s.calls ∨ ∃ i c₀, w = .call i ∧ s.calls[i]? = some c₀ ∧ c₀.pass = some p₀ ∧
      c = { c₀ with phase := .running p } := by
  cases w with
  | loop => exact .inl h
  | call i =>
    rcases mem_calls_setPhase h with hold | ⟨c₀, hc₀, rfl⟩
    · exact .inl hold
    · rw [Sys.pass, hc₀] at hpass
      exact .inr ⟨i, c₀, rfl, hc₀, hpass, rfl⟩

theorem mem_calls_finish {p₀ : Pass} {c : Call} {h : Option τ} {ok : Bool} (hpass : s.pass w = some p₀)
    (hc : c ∈ (s.finish h ok w).calls) :
    c ∈ s.calls ∨ ∃ i c₀, w = .call i ∧ s.calls[i]? = some c₀ ∧ c₀.pass = some p₀ ∧
      c = { c₀ with phase := .returned ok } := by
  cases w with
  | loop => exact .inl hc
  | call i =>
    rcases mem_calls_setPhase hc with hold | ⟨c₀, hc₀, rfl⟩
    · exact .inl hold
    · rw [Sys.pass, hc₀] at hpass
      exact .inr ⟨i, c₀, rfl, hc₀, hpass, rfl⟩

theorem mem_found : f ∈ s.found ↔ s.loop.found = some f ∨ ∃ c ∈ s.calls, ∃ p, c.pass = some p ∧ p.found = some f := by
  simp only [Sys.found, List.mem_filterMap, List.mem_cons]
  constructor
  · rintro ⟨p, rfl | ⟨c, hc, hp⟩, hf⟩
    · exact .inl hf
    · exact .inr ⟨c, hc, p, hp, hf⟩
  · rintro (hf | ⟨c, hc, p, hp, hf⟩)
    · exact ⟨s.loop, .inl rfl, hf⟩
    · exact ⟨p, .inr ⟨c, hc, hp⟩, hf⟩

theorem found_of_pass (hpass : s.pass w = some p) (hf : p.found = some f) : f ∈ s.found := by
  rw [mem_found]
  cases w with
  | loop =>
    cases hpass
    exact .inl hf
  | call i =>
    obtain ⟨c, hc, hp⟩ := Option.bind_eq_some_iff.mp hpass
    exact .inr ⟨c, List.mem_of_getElem? hc, p, hp, hf⟩

theorem found_setPhase (h : f ∈ (s.setPhase i q).found) :
    f ∈ s.found ∨ ∃ p, q = .running p ∧ p.found = some f := by
  rw [mem_found] at h ⊢
  rcases h with hloop | ⟨c, hc, p, hp, hf⟩
  · exact .inl (.inl hloop)
  · rcases Pool.mem_modify hc with hold | ⟨c₀, hc₀, rfl⟩
    · exact .inl (.inr ⟨c, hold, p, hp, hf⟩)
    · refine .inr ⟨p, ?_, hf⟩
      cases q with
      | running p' =>
        cases hp
        rfl
      | called | returned => cases hp

theorem found_setPass (h : f ∈ (s.setPass p w).found) : f ∈ s.found ∨ p.found = some f := by
  cases w with
  | loop =>
    rw [mem_found] at h
    rcases h with hloop | hcalls
    · exact .inr hloop
    · exact .inl (mem_found.mpr (.inr hcalls))
  | call i =>
    rcases found_setPhase h with hold | ⟨p', hp', hf⟩
    · exact .inl hold
    · cases hp'
      exact .inr hf

theorem found_finish {h : Option τ} {ok : Bool} (hf : f ∈ (s.finish h ok w).found) : f ∈ s.found := by
  cases w with
  | loop =>
    rw [mem_found] at hf ⊢
    rcases hf with hloop | hcalls
    · cases hloop
    · exact .inr hcalls
  | call i =>
    rcases found_setPhase hf with hold | ⟨p', hp', -⟩
    · exact hold
    · cases hp'

end Passes

/-! ## What a step does -/

section Steps

variable {τ : Type} {hash : List ResolvedForward → τ} {s s' : Sys τ} {e : Event} {f : Found}

inductive Moves (hash : List ResolvedForward → τ) (s : Sys τ) : Event → Sys τ → Prop where
  | called (r : ForwardRequest) : Moves hash s (.call r) { s with calls := s.calls ++ [⟨r, .called⟩] }
  | rejected {i : ℕ} {r : ForwardRequest} (hc : s.calls[i]? = some ⟨r, .called⟩) :
      Moves hash s (.reject i) (s.setPhase i (.returned false))
  | failed {i : ℕ} {r : ForwardRequest} {defaultIface : Option String} (saved : Bool)
      (hc : s.calls[i]? = some ⟨r, .called⟩) :
      Moves hash s (.change i defaultIface saved) (s.setPhase i (.returned false))
  | changed {i : ℕ} {r : ForwardRequest} {defaultIface : Option String} {store : State} (saved : Bool)
      (hc : s.calls[i]? = some ⟨r, .called⟩) (hfresh : s.Fresh r.draws)
      (hstore : r.change defaultIface s.store = some store) :
      Moves hash s (.change i defaultIface saved)
        { s.setPhase i (if saved then .running .ready else .returned false) with
          store := store, used := r.draws ++ s.used }
  | skipped (env : ForwardRule → HostEnv) (hpass : s.loop = .ready)
      (hskip : s.lastHash = some (hash (s.look env).res.resolved)) : Moves hash s (.look .loop env) (s.hear env)
  | looked {w : Who} (env : ForwardRule → HostEnv) (hpass : s.pass w = some .ready) (hskip : ¬s.Skips hash w env) :
      Moves hash s (.look w env) ((s.hear env).setPass (.resolved (s.look env)) w)
  | landed {w : Who} {f : Found} (hpass : s.pass w = some (.resolved f)) : Moves hash s (.land w true) (s.land w f)
  | refused {w : Who} {f : Found} (hpass : s.pass w = some (.resolved f)) :
      Moves hash s (.land w false) (s.finish s.lastHash false w)
  | written {w : Who} {f : Found} (hpass : s.pass w = some (.landed f)) :
      Moves hash s (.write w) (s.write w f (hash f.res.resolved))

/-- What a pass carries after a step it carried before, or has just found. -/
theorem Moves.found (h : Moves hash s e s') (hf : f ∈ s'.found) :
    f ∈ s.found ∨ ∃ w env, e = .look w env ∧ f = s.look env ∧ s'.answers = lookups env s.store ++ s.answers := by
  cases h with
  | called r =>
    refine .inl ?_
    simpa [Sys.found, Call.pass] using hf
  | rejected hc | failed saved hc =>
    rcases found_setPhase hf with hold | ⟨p, hp, -⟩
    · exact .inl hold
    · cases hp
  | changed saved hc hfresh hstore =>
    rcases found_setPhase (s := s) hf with hold | ⟨p, hp, hfound⟩
    · exact .inl hold
    · cases saved with
      | true =>
        cases hp
        cases hfound
      | false => cases hp
  | skipped env hpass hskip => exact .inl hf
  | @looked w env hpass hskip =>
    rcases found_setPass hf with hold | hnew
    · exact .inl hold
    · refine .inr ⟨w, env, rfl, (Option.some.inj hnew).symm, ?_⟩
      cases w <;> rfl
  | landed hpass =>
    rcases found_setPass (s := s) hf with hold | hnew
    · exact .inl hold
    · cases hnew
      exact .inl (found_of_pass hpass rfl)
  | refused hpass => exact .inl (found_finish hf)
  | written hpass => exact .inl (found_finish (s := s) hf)

/-- What a step does to the store. -/
inductive StoreStep (s s' : Sys τ) (e : Event) : Prop where
  | kept (hstore : s'.store = s.store) (hnot : ∀ w, e ≠ .write w)
  | changed {r : ForwardRequest} {defaultIface : Option String} (hfresh : s.Fresh r.draws)
      (hstore : r.change defaultIface s.store = some s'.store) (hused : s'.used = r.draws ++ s.used)
      (hnot : ∀ w, e ≠ .write w)
  | written {w : Who} {f : Found} (he : e = .write w) (hpass : s.pass w = some (.landed f))
      (hstore : s'.store = s.store.setResolved f.res.map)

theorem Moves.store (h : Moves hash s e s') : StoreStep s s' e := by
  cases h with
  | called | rejected | failed | skipped => exact .kept rfl nofun
  | looked env hpass hskip => exact .kept (by simp) nofun
  | landed hpass => exact .kept (by simp) nofun
  | refused hpass => exact .kept (by simp) nofun
  | changed saved hc hfresh hstore => exact .changed hfresh hstore rfl nofun
  | written hpass => exact .written rfl hpass rfl

theorem Moves.used (h : Moves hash s e s') {id : ForwardId} (hid : id ∈ s.used) : id ∈ s'.used := by
  cases h with
  | called | rejected | failed | skipped => exact hid
  | looked env hpass hskip => simpa using hid
  | landed hpass => simpa using hid
  | refused hpass => simpa using hid
  | written hpass => simpa [Sys.write] using hid
  | changed saved hc hfresh hstore => exact List.mem_append_right _ hid

theorem Moves.answers (h : Moves hash s e s') {a : String × BitVec 32} (ha : a ∈ s.answers) : a ∈ s'.answers := by
  cases h with
  | called | rejected | failed | changed => exact ha
  | skipped env hpass hskip => exact List.mem_append_right _ ha
  | @looked w env hpass hskip =>
    rw [Sys.setPass_answers]
    exact List.mem_append_right _ ha
  | landed hpass => simpa using ha
  | refused hpass => simpa using ha
  | written hpass => simpa [Sys.write] using ha

theorem step_moves [DecidableEq τ] (h : s.step hash e = some s') : Moves hash s e s' := by
  cases e with
  | call r =>
    cases h
    exact .called r
  | reject i =>
    simp only [Sys.step] at h
    split at h
    · next hc =>
      cases h
      exact .rejected hc
    · cases h
  | change i defaultIface saved =>
    simp only [Sys.step] at h
    split at h
    · next r hc =>
      split at h
      · next hfresh =>
        cases h
        unfold Sys.change
        split
        · exact .failed saved hc
        · next hstore => exact .changed saved hc hfresh hstore
      · cases h
    · cases h
  | look w env =>
    simp only [Sys.step] at h
    split at h
    · next hpass =>
      cases h
      split
      · next hskip =>
        obtain ⟨rfl, hhash⟩ := hskip
        exact .skipped env (Option.some.inj hpass) hhash
      · next hskip => exact .looked env hpass hskip
    · cases h
  | land w ok =>
    simp only [Sys.step] at h
    split at h
    · next f hpass =>
      cases h
      cases ok with
      | true => exact .landed hpass
      | false => exact .refused hpass
    · cases h
  | write w =>
    simp only [Sys.step] at h
    split at h
    · next f hpass =>
      cases h
      exact .written hpass
    · cases h

end Steps

/-! ## A tick of the loop -/

section Tick

variable {τ : Type} [DecidableEq τ] {hash : List ResolvedForward → τ} {s s' : Sys τ} {e : Event}

/-- What was installed last, by whomever. -/
def lastInstalled (installs : List (Who × List ResolvedForward)) : Option (List ResolvedForward) :=
  installs.head?.map Prod.snd

/-- What the loop installed last. -/
def lastOfLoop (installs : List (Who × List ResolvedForward)) : Option (List ResolvedForward) :=
  (installs.find? fun x => x.1 = .loop).map Prod.snd

theorem lastInstalled_of_lastOfLoop {installs : List (Who × List ResolvedForward)} {L : List ResolvedForward}
    (h : lastOfLoop installs = some L) : ∃ L', lastInstalled installs = some L' := by
  cases installs with
  | nil => cases h
  | cons x installs => exact ⟨x.2, rfl⟩

/-- The table is what was installed last, and the loop remembers what it installed
last, as soon as it has written its addresses back. -/
structure Remembers (hash : List ResolvedForward → τ) (table : List ResolvedForward) (s : Sys τ) : Prop where
  table : s.table = (lastInstalled s.installs).getD table
  loop : match s.loop with
    | .landed f => lastOfLoop s.installs = some f.res.resolved
    | _ => s.lastHash = (lastOfLoop s.installs).map hash

theorem remembers_step {table : List ResolvedForward} (hs : Remembers hash table s) (h : s.step hash e = some s') :
    Remembers hash table s' := by
  obtain ⟨htable, hloop⟩ := hs
  cases step_moves h with
  | called | rejected | failed | changed | skipped => exact ⟨htable, hloop⟩
  | @looked w env hpass hskip =>
    cases w with
    | loop =>
      refine ⟨htable, ?_⟩
      rw [Option.some.inj hpass] at hloop
      exact hloop
    | call i => exact ⟨htable, hloop⟩
  | @landed w f hpass =>
    cases w with
    | loop => exact ⟨rfl, rfl⟩
    | call i => exact ⟨rfl, hloop⟩
  | @refused w f hpass =>
    cases w with
    | loop =>
      refine ⟨htable, ?_⟩
      rw [Option.some.inj hpass] at hloop
      exact hloop
    | call i => exact ⟨htable, hloop⟩
  | @written w f hpass =>
    cases w with
    | loop =>
      refine ⟨htable, ?_⟩
      rw [Option.some.inj hpass] at hloop
      exact (congrArg (Option.map hash) hloop).symm
    | call i => exact ⟨htable, hloop⟩

/-- A tick that nothing interrupts and no call of which fails. -/
def loneTick (hash : List ResolvedForward → τ) (s : Sys τ) (env : ForwardRule → HostEnv) : List Event :=
  .look .loop env :: if s.Skips hash .loop env then [] else [.land .loop true, .write .loop]

/-- How the tick ends: the table is the old one if it skips, and else what it resolved. -/
theorem run_loneTick (env : ForwardRule → HostEnv) (hready : s.loop = .ready) :
    ∃ s', Lts.run (Sys.step hash) s (loneTick hash s env) = some s' ∧
      s'.table = if s.Skips hash .loop env then s.table else (s.look env).res.resolved := by
  have hlook : s.step hash (.look .loop env) =
      some (if s.Skips hash .loop env then s.hear env else (s.hear env).setPass (.resolved (s.look env)) .loop) := by
    simp only [Sys.step, Sys.pass, hready]
  unfold loneTick
  split
  · next hskip =>
    rw [if_pos hskip] at hlook
    exact ⟨_, Lts.run_cons_iff.mpr ⟨_, hlook, rfl⟩, rfl⟩
  · next hskip =>
    rw [if_neg hskip] at hlook
    exact ⟨_, Lts.run_cons_iff.mpr ⟨_, hlook, rfl⟩, rfl⟩

/-- After any run, a tick on its own leaves the table with what it resolved, exactly
when the loop did not install that last, or nobody has installed anything else since. -/
theorem lone_tick_repairs_iff (hhash : Function.Injective hash) (store : State) (table : List ResolvedForward)
    (es : List Event) (hrun : Lts.run (Sys.step hash) (.start store table) es = some s) (hready : s.loop = .ready)
    (env : ForwardRule → HostEnv) :
    ∃ s', Lts.run (Sys.step hash) s (loneTick hash s env) = some s' ∧
      (s'.table = (resolveAll env s.store).resolved ↔
        (lastOfLoop s.installs = some (resolveAll env s.store).resolved →
          lastInstalled s.installs = some (resolveAll env s.store).resolved)) := by
  have hstart : Remembers hash table (.start store table) := ⟨rfl, rfl⟩
  obtain ⟨htable, hloop⟩ := Lts.run_invariant (fun s e s' => remembers_step) hstart hrun
  rw [hready] at hloop
  obtain ⟨s', hrun', htable'⟩ := run_loneTick env hready
  refine ⟨s', hrun', ?_⟩
  rw [htable']
  split
  · next hskip =>
    obtain ⟨L, hL, hhashL⟩ := Option.map_eq_some_iff.mp (hloop.symm.trans hskip.2)
    obtain rfl : L = (resolveAll env s.store).resolved := hhash hhashL
    obtain ⟨last, hlast⟩ := lastInstalled_of_lastOfLoop hL
    rw [htable, hL, hlast]
    simp
  · next hskip =>
    refine iff_of_true rfl fun hlast => (hskip ⟨rfl, ?_⟩).elim
    rw [hloop, hlast]
    rfl

end Tick

/-! ## Passes that are not interrupted -/

section Uninterrupted

/-- The kernel as the table it has; it takes every new one, or none. -/
def tableNat (takes : Except String Unit) : NatBackend (List ResolvedForward) where
  applyNat resolved table := (takes, if takes.isOk then resolved else table)
  flushNat table := (takes, if takes.isOk then [] else table)

variable {H : Host (List ResolvedForward)} {takes : Except String Unit} {w : World (List ResolvedForward)}
variable {τ : Type} [DecidableEq τ] {hash : List ResolvedForward → τ} {s : Sys τ} {r : Resolution}

/-- The system and the world of the daemon have the same store and table. -/
structure Matches (s : Sys τ) (w : World (List ResolvedForward)) : Prop where
  store : w.store = s.store
  table : w.host = s.table

/-- The addresses are kept when the kernel has taken the table. -/
theorem commitForwards_tableNat (hsave : ∀ st table, (H.save st table).2 = table) (takes : Except String Unit)
    (r : Resolution) (w : World (List ResolvedForward)) :
    Act.wp (commitForwards H (tableNat takes) r) (fun res w' => res = takes ∧ match takes with
      | .ok () => w'.store = w.store.setResolved r.map ∧ w'.host = r.resolved
      | .error _ => w' = w) w := by
  have hinstall : installNat (tableNat takes) r.resolved w =
      (takes, { w with host := if takes.isOk then r.resolved else w.host }) := by
    unfold installNat
    cases hres : r.resolved <;> rfl
  unfold commitForwards
  rw [Act.wp_bind, Act.wp, hinstall]
  cases takes with
  | ok => exact ⟨rfl, rfl, hsave _ _⟩
  | error why => exact ⟨rfl, rfl⟩

omit [DecidableEq τ] in
theorem pass_setPass {p₀ p : Pass} {who : Who} (h : s.pass who = some p₀) : (s.setPass p who).pass who = some p := by
  cases who with
  | loop => rfl
  | call i =>
    obtain ⟨c, hc, -⟩ := Option.bind_eq_some_iff.mp h
    exact Option.bind_eq_some_iff.mpr ⟨_, Pool.getElem?_modified hc, rfl⟩

/-- A pass from beginning to end. -/
def passEvents (who : Who) (env : ForwardRule → HostEnv) (ok : Bool) : List Event :=
  .look who env :: .land who ok :: if ok then [.write who] else []

/-- The system after the pass, which the kernel has taken or not. -/
def Sys.passed (hash : List ResolvedForward → τ) (s : Sys τ) (who : Who) (env : ForwardRule → HostEnv) (ok : Bool) :
    Sys τ :=
  let f := s.look env
  let s₁ := (s.hear env).setPass (.resolved f) who
  if ok then (s₁.land who f).write who f (hash f.res.resolved) else s₁.finish s₁.lastHash false who

theorem run_passEvents {who : Who} {env : ForwardRule → HostEnv} (hpass : s.pass who = some .ready)
    (hskip : ¬s.Skips hash who env) (ok : Bool) :
    Lts.run (Sys.step hash) s (passEvents who env ok) = some (s.passed hash who env ok) := by
  let f := s.look env
  let s₁ := (s.hear env).setPass (.resolved f) who
  have hlook : s.step hash (.look who env) = some s₁ := by
    simp only [Sys.step, hpass]
    exact congrArg some (if_neg hskip)
  have hpass₁ : s₁.pass who = some (.resolved f) := pass_setPass (s := s.hear env) hpass
  have hland : s₁.step hash (.land who ok) =
      some (if ok then s₁.land who f else s₁.finish s₁.lastHash false who) := by
    simp only [Sys.step, hpass₁]
  cases ok with
  | false => exact Lts.run_cons_iff.mpr ⟨_, hlook, Lts.run_cons_iff.mpr ⟨_, hland, rfl⟩⟩
  | true =>
    have hpass₂ : (s₁.land who f).pass who = some (.landed f) := pass_setPass hpass₁
    have hwrite : (s₁.land who f).step hash (.write who) =
        some ((s₁.land who f).write who f (hash f.res.resolved)) := by
      simp only [Sys.step, hpass₂]
    exact Lts.run_cons_iff.mpr ⟨_, hlook, Lts.run_cons_iff.mpr ⟨_, hland, Lts.run_cons_iff.mpr ⟨_, hwrite, rfl⟩⟩⟩

omit [DecidableEq τ] in
/-- The system after a pass has the store and the table that `commitForwards` leaves. -/
theorem matches_passed (hash : List ResolvedForward → τ) (hsave : ∀ st table, (H.save st table).2 = table)
    (hmatch : Matches s w) (who : Who) (env : ForwardRule → HostEnv) (takes : Except String Unit) :
    Act.wp (commitForwards H (tableNat takes) (resolveAll env w.store))
      (fun res w' => res = takes ∧ Matches (s.passed hash who env takes.isOk) w') w := by
  apply Act.wp_mono (commitForwards_tableNat hsave takes (resolveAll env w.store) w)
  rintro res w' ⟨rfl, hw'⟩
  refine ⟨rfl, ?_⟩
  cases res with
  | ok =>
    obtain ⟨hstore, htable⟩ := hw'
    rw [hmatch.store] at hstore htable
    refine ⟨?_, ?_⟩
    · cases who <;> exact hstore
    · cases who <;> exact htable
  | error why =>
    subst hw'
    refine ⟨?_, ?_⟩
    · cases who <;> exact hmatch.store
    · cases who <;> exact hmatch.table

/-- A pass of a request does what `applyNow` does. -/
theorem pass_uninterrupted (hsave : ∀ st table, (H.save st table).2 = table) (env : ForwardRule → HostEnv)
    (takes : Except String Unit) (hmatch : Matches s w) {i : ℕ} {req : ForwardRequest}
    (hc : s.calls[i]? = some ⟨req, .running .ready⟩) :
    ∃ s', Lts.run (Sys.step hash) s (passEvents (.call i) env takes.isOk) = some s' ∧
      Act.wp (applyNow H (tableNat takes) env) (fun res w' => res.isOk = takes.isOk ∧ Matches s' w') w ∧
      s'.calls[i]? = some ⟨req, .returned takes.isOk⟩ := by
  have hpass : s.pass (.call i) = some .ready := Option.bind_eq_some_iff.mpr ⟨_, hc, rfl⟩
  refine ⟨_, run_passEvents hpass (fun hskip => absurd hskip.1 nofun) takes.isOk, ?_, ?_⟩
  · have hcommit := matches_passed hash hsave hmatch (.call i) env takes
    simp only [applyNow, Act.wp_bind, Act.wp_get, Act.andThen_ok]
    apply Act.wp_mono hcommit
    rintro res w' ⟨rfl, hw'⟩
    cases res with
    | ok => exact ⟨rfl, hw'⟩
    | error why => exact ⟨rfl, hw'⟩
  · have hc₁ := Pool.getElem?_modified (f := fun c => { c with phase := .running (.resolved (s.look env)) }) hc
    cases takes with
    | ok =>
      have hc₂ := Pool.getElem?_modified (f := fun c => { c with phase := .running (.landed (s.look env)) }) hc₁
      exact Pool.getElem?_modified hc₂
    | error why => exact Pool.getElem?_modified hc₁

/-- A tick of the loop does what `resolveTick` does. -/
theorem tick_uninterrupted (hsave : ∀ st table, (H.save st table).2 = table) (env : ForwardRule → HostEnv)
    (takes : Except String Unit) (hmatch : Matches s w) (hready : s.loop = .ready) :
    ∃ es s', Lts.run (Sys.step hash) s es = some s' ∧
      Act.wp (resolveTick H (tableNat takes) hash env s.lastHash)
        (fun res w' => res = .ok s'.lastHash ∧ Matches s' w') w := by
  have hpass : s.pass .loop = some .ready := congrArg some hready
  simp only [resolveTick, Act.wp_bind, Act.wp_get, Act.andThen_ok]
  split
  · next hskip =>
    rw [hmatch.store] at hskip
    have hlook : s.step hash (.look .loop env) = some (s.hear env) := by
      simp only [Sys.step, hpass]
      exact congrArg some (if_pos ⟨rfl, hskip⟩)
    exact ⟨[.look .loop env], _, Lts.run_cons_iff.mpr ⟨_, hlook, rfl⟩, rfl, hmatch.store, hmatch.table⟩
  · next hskip =>
    rw [hmatch.store] at hskip
    refine ⟨_, _, run_passEvents hpass (fun h => hskip h.2) takes.isOk, ?_⟩
    have hcommit := matches_passed hash hsave hmatch .loop env takes
    simp only [Act.wp_bind, Act.wp_attempt, Act.andThen_ok]
    apply Act.wp_mono hcommit
    rintro res w' ⟨rfl, hw'⟩
    cases res with
    | ok => exact ⟨by rw [hmatch.store]; rfl, hw'⟩
    | error why => exact ⟨rfl, hw'⟩

end Uninterrupted

/-! ### A table behind the loop's back -/

/-- One interface, and no names. -/
def plainEnv : HostEnv where
  defaultRouteIface := some "eth0"
  lookup _ := none
  firstIpv4 _ := some (ipv4 192 0 2 1)
  ifaceHasIpv4 _ _ := false

def webRule (destHost : String) : ForwardRule :=
  ⟨⟨0⟩, .tcp, none, .single 443, destHost, .single 8443, .auto, "", 0, ⟨0⟩⟩

def webRequest (destHost : String) : AddForwardRequest :=
  ⟨.tcp, none, .single 443, destHost, .single 8443, .auto, ""⟩

def webStore (destHost : String) : State := { State.default with forwards := [webRule destHost] }

/-- The loop installs the rule, and a request that changes its target cannot install it. -/
def refusedChange : List Event :=
  [.look .loop fun _ => plainEnv, .land .loop true, .write .loop,
    .call (.update ⟨0⟩ (webRequest "198.51.100.2")), .change 0 none true,
    .look (.call 0) fun _ => plainEnv, .land (.call 0) false]

/-- The next tick installs what the request could not. -/
theorem tick_repairs_refused : ∃ s : Sys (List ResolvedForward),
    Lts.run (Sys.step id) (.start (webStore "198.51.100.1") []) refusedChange = some s ∧
      ∃ s', Lts.run (Sys.step id) s (loneTick id s fun _ => plainEnv) = some s' ∧
        s'.table = (resolveAll (fun _ => plainEnv) s.store).resolved := by
  obtain ⟨s', hrun, hiff⟩ := lone_tick_repairs_iff Function.injective_id (webStore "198.51.100.1") [] refusedChange
    rfl rfl fun _ => plainEnv
  exact ⟨_, rfl, s', hrun, hiff.mpr fun hloop => absurd hloop (by decide +kernel)⟩

/-- The loop installs the rule, a request changes its target, and a second one that
changes it back cannot install it. -/
def changeAndBack : List Event :=
  [.look .loop fun _ => plainEnv, .land .loop true, .write .loop,
    .call (.update ⟨0⟩ (webRequest "198.51.100.2")), .change 0 none true,
    .look (.call 0) fun _ => plainEnv, .land (.call 0) true, .write (.call 0),
    .call (.update ⟨0⟩ (webRequest "198.51.100.1")), .change 1 none true,
    .look (.call 1) fun _ => plainEnv, .land (.call 1) false]

/-- The next tick resolves what the loop installed last, and leaves the table of the
first request. -/
theorem tick_leaves_old_table : ∃ s : Sys (List ResolvedForward),
    Lts.run (Sys.step id) (.start (webStore "198.51.100.1") []) changeAndBack = some s ∧ s.loop = .ready ∧
      ∃ s', Lts.run (Sys.step id) s (loneTick id s fun _ => plainEnv) = some s' ∧
        s'.table ≠ (resolveAll (fun _ => plainEnv) s.store).resolved := by
  refine ⟨_, rfl, rfl, _, rfl, ?_⟩
  decide +kernel

end Ipgate.Forwarding
