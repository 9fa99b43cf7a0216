-- SUMMARY: Requests for the allowlist and reconcile ticks step by step, in any order, and when a tick undoes a request.
import Ipgate.Lib.Lts
import Ipgate.Lib.Pool
import Ipgate.Agent.Api.Handlers

/-!
# Requests against ticks

A request changes the store under its lock and calls the backend when it has let
go of it. A tick takes a copy of the entries under the lock, and lists and changes
the kernel without. Between the copy and what the tick does about it, requests
may come and go.
-/

namespace Ipgate.Allowlist

open Net

/-! ## Requests -/

inductive ListRequest where
  | allow (who : DeviceId) (req : AllowRequest) (now : DateTime) (id : EntryId)
  | revoke (req : RevokeRequest)
  deriving DecidableEq

/-- The section under the store lock: the target it is about, unless it fails, and
the store it leaves. -/
def ListRequest.change (s : State) : ListRequest → Option IpNet × State
  | .allow who req now id => (some req.target, (s.allow req who now id).2)
  | .revoke req =>
    match revokeTarget s req with
    | none => (none, s)
    | some t => (if (s.revokeByTarget t).1 then some t else none, (s.revokeByTarget t).2)

/-- The backend call that follows. -/
def ListRequest.call (t : IpNet) (k : NetList) : ListRequest → NetList
  | .allow .. => k.add t
  | .revoke _ => k.remove t

/-- A request under way. -/
structure Call where
  req : ListRequest
  /-- The calls that had returned when this one was made. -/
  before : List ℕ
  /-- What its section under the store lock was about, when it has been there. -/
  target : Option IpNet
  /-- Whether it returned `Ok`, when it has returned. -/
  result : Option Bool
  deriving DecidableEq

/-- Behind the section under the lock; a request that failed there returns. -/
def Call.changed (c : Call) (t : Option IpNet) (saved : Bool) : Call :=
  { c with target := t, result := if t.isSome && saved then none else some false }

/-! ## Ticks -/

/-- A round of the reconcile loop. -/
inductive Tick where
  | began (now : DateTime)
  | copied (now : DateTime) (entries : List Entry)
  | acting (entries : List Entry) (missing stale : List IpNet)
  /-- The kernel could not be listed. -/
  | rebuilding
  deriving DecidableEq

/-- The time the round goes by has come. -/
def Tick.Since (clock : DateTime) : Tick → Prop
  | .began now => now ≤ clock
  | .copied now _ => now ≤ clock
  | _ => True

/-- The target a tick adds next. -/
def Tick.adds : Tick → Option IpNet
  | .acting _ (t :: _) _ => some t
  | _ => none

/-- The target a tick removes next. -/
def Tick.removes : Tick → Option IpNet
  | .acting _ [] (t :: _) => some t
  | _ => none

theorem Tick.Since.later {k : Tick} {clock clock' : DateTime} (hle : clock ≤ clock') (h : k.Since clock) :
    k.Since clock' := by
  cases k with
  | began now => exact Int.le_trans h hle
  | copied now entries => exact Int.le_trans h hle
  | acting | rebuilding => trivial

/-! ## Steps -/

structure Sys where
  store : State
  kernel : NetList
  clock : DateTime
  calls : List Call
  ticks : List Tick

inductive Event where
  | wait (now : DateTime)
  /-- The kernel drops an element whose timeout has run out. -/
  | lapse (n : IpNet)
  | call (r : ListRequest)
  | change (i : ℕ) (saved : Bool)
  | apply (i : ℕ) (ok : Bool)
  | tick
  | copy (j : ℕ)
  | list (j : ℕ) (O : HashOrder) (ok : Bool)
  | add (j : ℕ) (ok : Bool)
  | remove (j : ℕ) (ok : Bool)
  | rebuild (j : ℕ) (ok : Bool)

namespace Sys

/-- Nothing is under way. -/
def start (store : State) (kernel : NetList) (clock : DateTime) : Sys := ⟨store, kernel, clock, [], []⟩

def returned (s : Sys) : List ℕ :=
  (List.range s.calls.length).filter fun i => (s.calls[i]?).any fun c => c.result.isSome

/-- A request takes the store lock, changes the store and saves it. -/
def change (s : Sys) (i : ℕ) (c : Call) (saved : Bool) : Sys :=
  { s with
    store := (c.req.change s.store).2
    calls := s.calls.set i (c.changed (c.req.change s.store).1 saved) }

/-- A request calls the backend and returns. -/
def apply (s : Sys) (i : ℕ) (c : Call) (t : IpNet) (ok : Bool) : Sys :=
  { s with
    kernel := if ok then c.req.call t s.kernel else s.kernel
    calls := s.calls.set i { c with result := some ok } }

/-- A tick takes the store lock, removes what has expired, and copies the rest. -/
def copy (s : Sys) (j : ℕ) (now : DateTime) : Sys :=
  { s with
    store := (s.store.pruneExpired now).2
    ticks := s.ticks.set j (.copied now (s.store.pruneExpired now).2.entries) }

/-- A tick lists the kernel and compares. -/
def list (s : Sys) (j : ℕ) (now : DateTime) (entries : List Entry) (O : HashOrder) : Sys :=
  let d := diff O entries (s.kernel.nets.map fun n => ⟨n, none⟩) now
  { s with ticks := s.ticks.set j (.acting entries d.missingInKernel d.staleInKernel) }

def addTarget (s : Sys) (j : ℕ) (entries : List Entry) (t : IpNet) (missing stale : List IpNet)
    (ok : Bool) : Sys :=
  { s with
    kernel := if ok && (entries.find? fun e => e.target = t).isSome then s.kernel.add t else s.kernel
    ticks := s.ticks.set j (.acting entries missing stale) }

def removeTarget (s : Sys) (j : ℕ) (entries : List Entry) (t : IpNet) (stale : List IpNet)
    (ok : Bool) : Sys :=
  { s with
    kernel := if ok then s.kernel.remove t else s.kernel
    ticks := s.ticks.set j (.acting entries [] stale) }

/-- A tick takes the store lock and rebuilds the table from the store. -/
def rebuild (s : Sys) (j : ℕ) (ok : Bool) : Sys :=
  { s with
    kernel := if ok then .load (s.store.entries.filter fun e => !e.isExpired s.clock) else s.kernel
    ticks := s.ticks.set j (.acting [] [] []) }

def step (s : Sys) : Event → Option Sys
  | .wait now => if s.clock ≤ now then some { s with clock := now } else none
  | .lapse n => some { s with kernel := s.kernel.remove n }
  | .call r => some { s with calls := s.calls ++ [⟨r, s.returned, none, none⟩] }
  | .change i saved =>
    match s.calls[i]? with
    | some ⟨req, before, none, none⟩ => some (s.change i ⟨req, before, none, none⟩ saved)
    | _ => none
  | .apply i ok =>
    match s.calls[i]? with
    | some ⟨req, before, some t, none⟩ => some (s.apply i ⟨req, before, some t, none⟩ t ok)
    | _ => none
  | .tick => some { s with ticks := s.ticks ++ [.began s.clock] }
  | .copy j =>
    match s.ticks[j]? with
    | some (.began now) => some (s.copy j now)
    | _ => none
  | .list j O ok =>
    match s.ticks[j]? with
    | some (.copied now entries) =>
      some (if ok then s.list j now entries O else { s with ticks := s.ticks.set j .rebuilding })
    | _ => none
  | .add j ok =>
    match s.ticks[j]? with
    | some (.acting entries (t :: missing) stale) => some (s.addTarget j entries t missing stale ok)
    | _ => none
  | .remove j ok =>
    match s.ticks[j]? with
    | some (.acting entries [] (t :: stale)) => some (s.removeTarget j entries t stale ok)
    | _ => none
  | .rebuild j ok =>
    match s.ticks[j]? with
    | some .rebuilding => some (s.rebuild j ok)
    | _ => none

end Sys

/-! ## What is undone -/

def Call.Allows (c : Call) (t : IpNet) : Prop := ∃ who req now id, c.req = .allow who req now id ∧ req.target = t

def Call.Revokes (c : Call) (t : IpNet) : Prop := (∃ req, c.req = .revoke req) ∧ c.target = some t

/-- The entry is what the request asks for. -/
def ListRequest.AsksFor (r : ListRequest) (e : Entry) : Prop :=
  ∃ who req now id, r = .allow who req now id ∧ req.target = e.target ∧ req.expiresAt = e.expiresAt

/-- The entry is one the call stored. -/
def Call.Stored (c : Call) (e : Entry) : Prop := c.req.AsksFor e ∧ c.target = some e.target

/-- The call stored an entry for the target that has expired. -/
def Call.Expired (c : Call) (t : IpNet) (clock : DateTime) : Prop :=
  ∃ e, c.Stored e ∧ e.target = t ∧ e.isExpired clock = true

namespace Sys

variable (s : Sys)

/-- Some call of the kind overlapped `c` or followed it. -/
def Later (c : Call) (P : Call → Prop) : Prop := ∃ i d, s.calls[i]? = some d ∧ i ∉ c.before ∧ P d

/-- The event is a tick putting the target into the kernel set. -/
def Puts (t : IpNet) : Event → Prop
  | .add j true => s.ticks[j]?.bind Tick.adds = some t
  | .rebuild j true => s.ticks[j]? = some .rebuilding ∧ ActiveTarget s.store.entries s.clock t
  | _ => False

/-- The event is a tick taking the network of the target out of the kernel set. -/
def Takes (t : IpNet) : Event → Prop
  | .remove j true => ∃ u, s.ticks[j]?.bind Tick.removes = some u ∧ u.network = t.network
  | .rebuild j true => s.ticks[j]? = some .rebuilding ∧
      ∀ e ∈ s.store.entries, e.isExpired s.clock = false → e.target.network ≠ t.network
  | _ => False

/-- The target was revoked, nobody has allowed it since, and a tick puts it back. -/
def UndoesRevoke (e : Event) : Prop :=
  ∃ c ∈ s.calls, ∃ t, c.Revokes t ∧ c.result = some true ∧ s.Puts t e ∧ ¬s.Later c (·.Allows t)

/-- The target was allowed, nobody has revoked it since, its entry has not expired,
and a tick takes it out. -/
def UndoesAllow (e : Event) : Prop :=
  ∃ c ∈ s.calls, ∃ t, c.Allows t ∧ c.result = some true ∧ s.Takes t e ∧
    ¬s.Later c (·.Revokes t) ∧ ¬s.Later c (·.Expired t s.clock)

/-- A tick adds a target only while it is stored, and removes one only while no
unexpired entry is for its network. -/
def InTime : Event → Prop
  | .add j _ => ∀ t ∈ s.ticks[j]?.bind Tick.adds, ∃ e ∈ s.store.entries, e.target = t
  | .remove j _ => ∀ t ∈ s.ticks[j]?.bind Tick.removes,
      ∀ e ∈ s.store.entries, e.isExpired s.clock = false → e.target.network ≠ t.network
  | _ => True

instance : (e : Event) → Decidable (s.InTime e)
  | .add j _ => inferInstanceAs
      (Decidable (∀ t ∈ s.ticks[j]?.bind Tick.adds, ∃ e ∈ s.store.entries, e.target = t))
  | .remove j _ => inferInstanceAs
      (Decidable (∀ t ∈ s.ticks[j]?.bind Tick.removes,
        ∀ e ∈ s.store.entries, e.isExpired s.clock = false → e.target.network ≠ t.network))
  | .wait _ | .lapse _ | .call _ | .change _ _ | .apply _ _ | .tick | .copy _ | .list _ _ _
  | .rebuild _ _ => .isTrue trivial

/-! ## The invariant -/

/-- Some call stored the entry and overlapped `c` or followed it. -/
def Standing (c : Call) (t : IpNet) : Prop := ∃ e ∈ s.store.entries, e.target = t ∧ s.Later c (·.Stored e)

structure Inv : Prop where
  before : ∀ c ∈ s.calls, ∀ i ∈ c.before, ∃ d, s.calls[i]? = some d ∧ d.result.isSome
  stored : ∀ c ∈ s.calls, c.result = some true → c.target.isSome
  since : ∀ k ∈ s.ticks, k.Since s.clock
  revoked : ∀ c ∈ s.calls, ∀ t, c.Revokes t → ∀ e ∈ s.store.entries, e.target = t → s.Later c (·.Allows t)
  allowed : ∀ c ∈ s.calls, ∀ t, c.Allows t → c.target.isSome →
    s.Standing c t ∨ s.Later c (·.Revokes t) ∨ s.Later c (·.Expired t s.clock)

end Sys

/-! ## What a step does -/

/-- The same call, further on. -/
structure Call.Grows (c d : Call) : Prop where
  req : d.req = c.req
  before : d.before = c.before
  target : ∀ t, c.target = some t → d.target = some t
  result : c.result.isSome → d.result = c.result

theorem Call.Grows.refl (c : Call) : c.Grows c := ⟨rfl, rfl, fun _ h => h, fun _ => rfl⟩

section Steps

variable {s s' : Sys} {e : Event} {c d : Call} {t : IpNet} {P P' : Call → Prop}

/-- What a step does to the store, the calls and the clock. -/
inductive Moves (s : Sys) : Sys → Prop where
  | quiet {s' : Sys} (hstore : s'.store = s.store) (hcalls : s'.calls = s.calls) (hclock : s.clock ≤ s'.clock)
      (hticks : ∀ k ∈ s'.ticks, k ∈ s.ticks ∨ k.Since s'.clock) : Moves s s'
  | called (r : ListRequest) : Moves s { s with calls := s.calls ++ [⟨r, s.returned, none, none⟩] }
  | changed {i : ℕ} {c : Call} (saved : Bool) (hc : s.calls[i]? = some c) (htarget : c.target = none)
      (hresult : c.result = none) : Moves s (s.change i c saved)
  | applied {i : ℕ} {c : Call} {t : IpNet} (ok : Bool) (hc : s.calls[i]? = some c) (htarget : c.target = some t)
      (hresult : c.result = none) : Moves s (s.apply i c t ok)
  | copied {j : ℕ} {now : DateTime} (hk : s.ticks[j]? = some (.began now)) : Moves s (s.copy j now)

/-- A step of a tick outside the store lock changes the kernel and the tick only. -/
theorem Moves.tick {j : ℕ} {k : Tick} {kernel : NetList} (hk : k.Since s.clock) :
    Moves s { s with kernel := kernel, ticks := s.ticks.set j k } := by
  refine .quiet rfl rfl (Int.le_refl _) fun k' hk' => ?_
  rcases Pool.mem_move hk' with hold | rfl
  · exact .inl hold
  · exact .inr hk

theorem step_moves (h : s.step e = some s') : Moves s s' := by
  cases e with
  | wait now =>
    simp only [Sys.step] at h
    split at h
    · next hle =>
      cases h
      exact .quiet rfl rfl hle fun k hk => .inl hk
    · cases h
  | lapse n =>
    cases h
    exact .quiet rfl rfl (Int.le_refl _) fun k hk => .inl hk
  | call r =>
    cases h
    exact .called r
  | change i saved =>
    simp only [Sys.step] at h
    split at h
    · next hc =>
      cases h
      exact .changed saved hc rfl rfl
    · cases h
  | apply i ok =>
    simp only [Sys.step] at h
    split at h
    · next hc =>
      cases h
      exact .applied ok hc rfl rfl
    · cases h
  | tick =>
    cases h
    refine .quiet rfl rfl (Int.le_refl _) fun k hk => ?_
    rcases List.mem_append.mp hk with hold | hnew
    · exact .inl hold
    · obtain rfl := List.mem_singleton.mp hnew
      exact .inr (Int.le_refl _)
  | copy j =>
    simp only [Sys.step] at h
    split at h
    · next hk =>
      cases h
      exact .copied hk
    · cases h
  | list j O ok =>
    simp only [Sys.step] at h
    split at h
    · cases h
      cases ok <;> exact .tick trivial
    · cases h
  | add j ok =>
    simp only [Sys.step] at h
    split at h
    · cases h
      exact .tick trivial
    · cases h
  | remove j ok =>
    simp only [Sys.step] at h
    split at h
    · cases h
      exact .tick trivial
    · cases h
  | rebuild j ok =>
    simp only [Sys.step] at h
    split at h
    · cases h
      exact .tick trivial
    · cases h

/-! ## Calls further on -/

theorem Call.Allows.grows (hgrows : c.Grows d) (h : c.Allows t) : d.Allows t := by
  obtain ⟨who, req, now, id, hreq, htarget⟩ := h
  exact ⟨who, req, now, id, hgrows.req.trans hreq, htarget⟩

theorem Call.Revokes.grows (hgrows : c.Grows d) (h : c.Revokes t) : d.Revokes t := by
  obtain ⟨⟨req, hreq⟩, htarget⟩ := h
  exact ⟨⟨req, hgrows.req.trans hreq⟩, hgrows.target t htarget⟩

theorem Call.Stored.grows {e : Entry} (hgrows : c.Grows d) (h : c.Stored e) : d.Stored e := by
  obtain ⟨hreq, htarget⟩ := h
  exact ⟨hgrows.req ▸ hreq, hgrows.target _ htarget⟩

theorem Call.Expired.grows {clock clock' : DateTime} (hle : clock ≤ clock') (hgrows : c.Grows d)
    (h : c.Expired t clock) : d.Expired t clock' := by
  obtain ⟨e, hstored, htarget, hexp⟩ := h
  exact ⟨e, hstored.grows hgrows, htarget, e.isExpired_mono hle hexp⟩

/-- A later call stays a later call. -/
theorem Sys.Later.grows (hcalls : Pool.Grows Call.Grows s.calls s'.calls)
    (hP : ∀ d d', d.Grows d' → P d → P' d') (h : s.Later c P) : s'.Later c P' := by
  obtain ⟨i, d, hd, hi, hPd⟩ := h
  obtain ⟨d', hd', hgrows⟩ := hcalls i d hd
  exact ⟨i, d', hd', hi, hP d d' hgrows hPd⟩

theorem Moves.grows (h : Moves s s') : Pool.Grows Call.Grows s.calls s'.calls := by
  cases h with
  | quiet hstore hcalls hclock hticks =>
    rw [hcalls]
    exact .refl Call.Grows.refl s.calls
  | called r => exact Pool.grows_start Call.Grows.refl
  | changed saved hc htarget hresult =>
    refine Pool.grows_move Call.Grows.refl hc ⟨rfl, rfl, ?_, ?_⟩
    · simp [htarget]
    · simp [hresult]
  | applied ok hc htarget hresult =>
    refine Pool.grows_move Call.Grows.refl hc ⟨rfl, rfl, fun t ht => ht, ?_⟩
    simp [hresult]
  | copied hk => exact .refl Call.Grows.refl s.calls

theorem Moves.clock_le (h : Moves s s') : s.clock ≤ s'.clock := by
  cases h with
  | quiet hstore hcalls hclock hticks => exact hclock
  | called | changed | applied | copied => exact Int.le_refl _

/-! ## What a request does to the store -/

section Change

variable {r : ListRequest} {st : State} {e : Entry}

/-- An entry in the store afterwards was there, or is what the request asks for. -/
theorem change_origin (he : e ∈ (r.change st).2.entries) :
    e ∈ st.entries ∨ r.AsksFor e ∧ (r.change st).1 = some e.target := by
  cases r with
  | allow who req now id =>
    rcases State.mem_allow.mp he with ⟨hold, -⟩ | rfl
    · exact .inl hold
    · exact .inr ⟨⟨who, req, now, id, rfl, rfl, rfl⟩, rfl⟩
  | revoke req =>
    simp only [ListRequest.change] at he
    split at he
    · exact .inl he
    · exact .inl (State.mem_revokeByTarget.mp he).1

/-- A request to allow leaves the entry it asks for. -/
theorem change_allow (st : State) (who : DeviceId) (req : AllowRequest) (now : DateTime) (id : EntryId) :
    ∃ e ∈ ((ListRequest.allow who req now id).change st).2.entries, e.target = req.target ∧
      (ListRequest.allow who req now id).AsksFor e :=
  ⟨(st.allow req who now id).1, State.mem_allow.mpr (.inr rfl), rfl, who, req, now, id, rfl, rfl, rfl⟩

/-- A successful request to revoke leaves no entry for its target. -/
theorem change_revoke {req : RevokeRequest} (h : ((ListRequest.revoke req).change st).1 = some t)
    (he : e ∈ ((ListRequest.revoke req).change st).2.entries) : e.target ≠ t := by
  simp only [ListRequest.change] at h he
  cases hfind : revokeTarget st req with
  | none =>
    rw [hfind] at h
    cases h
  | some u =>
    simp only [hfind] at h he
    split at h
    · cases h
      exact (State.mem_revokeByTarget.mp he).2
    · cases h

/-- An entry that a request takes out of the store is revoked, or replaced. -/
theorem change_fate (he : e ∈ st.entries) : e ∈ (r.change st).2.entries ∨
    (r.change st).1 = some e.target ∧ ((∃ req, r = .revoke req) ∨
      ∃ e' ∈ (r.change st).2.entries, e'.target = e.target ∧ r.AsksFor e') := by
  cases r with
  | allow who req now id =>
    by_cases htarget : e.target = req.target
    · obtain ⟨e', he', htarget', hasks⟩ := change_allow st who req now id
      exact .inr ⟨congrArg some htarget.symm, .inr ⟨e', he', htarget'.trans htarget.symm, hasks⟩⟩
    · exact .inl (State.mem_allow.mpr (.inl ⟨he, htarget⟩))
  | revoke req =>
    simp only [ListRequest.change]
    split
    · exact .inl he
    · next u _ =>
      by_cases htarget : e.target = u
      · subst htarget
        rw [State.revokeByTarget_fst_of_mem he]
        exact .inr ⟨rfl, .inl ⟨req, rfl⟩⟩
      · exact .inl (State.mem_revokeByTarget.mpr ⟨he, htarget⟩)

end Change

/-! ## The invariant is kept -/

theorem mem_returned {i : ℕ} : i ∈ s.returned ↔ ∃ c, s.calls[i]? = some c ∧ c.result.isSome := by
  simp only [Sys.returned, List.mem_filter, List.mem_range, Option.any_eq_true]
  constructor
  · rintro ⟨-, c, hc, hresult⟩
    exact ⟨c, hc, hresult⟩
  · rintro ⟨c, hc, hresult⟩
    exact ⟨(List.getElem?_eq_some_iff.mp hc).1, c, hc, hresult⟩

/-- A call that has not returned was not over when another was made. -/
theorem Sys.Inv.not_before (hinv : s.Inv) {i : ℕ} (hc : c ∈ s.calls) (hd : s.calls[i]? = some d)
    (hresult : d.result = none) : i ∉ c.before := by
  intro hi
  obtain ⟨d', hd', hsome⟩ := hinv.before c hc i hi
  rw [hd] at hd'
  cases hd'
  rw [hresult] at hsome
  cases hsome

/-- A call that a step moves on, with the call it has become. -/
structure Moved (s s' : Sys) (i : ℕ) (c d : Call) : Prop where
  was : s.calls[i]? = some c
  unreturned : c.result = none
  is : s'.calls[i]? = some d
  before : d.before = c.before

theorem Moved.change {i : ℕ} {saved : Bool} (hc : s.calls[i]? = some c) (hresult : c.result = none) :
    Moved s (s.change i c saved) i c (c.changed (c.req.change s.store).1 saved) :=
  ⟨hc, hresult, Pool.getElem?_moved hc, rfl⟩

/-- An entry in the store after a step was there, or the call that moved stored it. -/
theorem Moves.entry_origin (h : Moves s s') {e : Entry} (he : e ∈ s'.store.entries) :
    e ∈ s.store.entries ∨ ∃ i c d, Moved s s' i c d ∧ d.Stored e := by
  cases h with
  | quiet hstore hcalls hclock hticks =>
    rw [hstore] at he
    exact .inl he
  | called r => exact .inl he
  | @changed i c saved hc htarget hresult =>
    rcases change_origin he with hold | ⟨hasks, hsome⟩
    · exact .inl hold
    · exact .inr ⟨i, c, _, .change hc hresult, hasks, hsome⟩
  | applied ok hc htarget hresult => exact .inl he
  | copied hk => exact .inl (State.mem_pruneExpired.mp he).1

/-- What became of an entry in the store: it is there, it had expired, or the call
that moved revoked or replaced it. -/
theorem Moves.entry_fate (hinv : s.Inv) (h : Moves s s') {e : Entry} (he : e ∈ s.store.entries) :
    e ∈ s'.store.entries ∨ e.isExpired s'.clock = true ∨ ∃ i c d, Moved s s' i c d ∧
      (d.Revokes e.target ∨ ∃ e' ∈ s'.store.entries, e'.target = e.target ∧ d.Stored e') := by
  cases h with
  | quiet hstore hcalls hclock hticks => exact .inl (hstore ▸ he)
  | called r => exact .inl he
  | @changed i c saved hc htarget hresult =>
    rcases change_fate (r := c.req) he with hkept | ⟨hsome, hrevoked | ⟨e', he', htarget', hasks⟩⟩
    · exact .inl hkept
    · exact .inr (.inr ⟨i, c, _, .change hc hresult, .inl ⟨hrevoked, hsome⟩⟩)
    · refine .inr (.inr ⟨i, c, _, .change hc hresult, .inr ⟨e', he', htarget', hasks, ?_⟩⟩)
      exact hsome.trans (congrArg some htarget'.symm)
  | applied ok hc htarget hresult => exact .inl he
  | @copied j now hk =>
    by_cases hexp : e.isExpired now = true
    · have hle : now ≤ s.clock := hinv.since _ (List.mem_of_getElem? hk)
      exact .inr (.inl (e.isExpired_mono hle hexp))
    · exact .inl (State.mem_pruneExpired.mpr ⟨he, by simpa using hexp⟩)

/-- Where a call after a step comes from. -/
inductive Origin (s s' : Sys) (d : Call) : Prop where
  | old (c : Call) (hc : c ∈ s.calls) (hbefore : d.before = c.before) (hreq : d.req = c.req)
      (htarget : d.target = c.target)
  | made (hbefore : d.before = s.returned) (htarget : d.target = none)
  | moved (i : ℕ) (c : Call) (hmoved : Moved s s' i c d) (hreq : d.req = c.req)
      (htarget : d.target = (c.req.change s.store).1) (hstore : s'.store = (c.req.change s.store).2)

theorem Moves.origin (h : Moves s s') (hd : d ∈ s'.calls) : Origin s s' d := by
  cases h with
  | quiet hstore hcalls hclock hticks => exact .old d (hcalls ▸ hd) rfl rfl rfl
  | called r =>
    rcases List.mem_append.mp hd with hold | hnew
    · exact .old d hold rfl rfl rfl
    · obtain rfl := List.mem_singleton.mp hnew
      exact .made rfl rfl
  | @changed i c saved hc htarget hresult =>
    rcases Pool.mem_move hd with hold | rfl
    · exact .old d hold rfl rfl rfl
    · exact .moved i c (.change hc hresult) rfl rfl rfl
  | @applied i c t ok hc htarget hresult =>
    rcases Pool.mem_move hd with hold | rfl
    · exact .old d hold rfl rfl rfl
    · exact .old c (List.mem_of_getElem? hc) rfl rfl rfl
  | copied hk => exact .old d hd rfl rfl rfl

/-- The call that moved overlaps every call made before the step. -/
theorem Sys.Later.moved (hinv : s.Inv) {i : ℕ} {c₀ : Call} (hc : c ∈ s.calls) (hmoved : Moved s s' i c₀ d) (hP : P d) :
    s'.Later c P :=
  ⟨i, d, hmoved.is, hinv.not_before hc hmoved.was hmoved.unreturned, hP⟩

theorem Sys.Later.of_before {c' : Call} (hbefore : c'.before = c.before) (h : s.Later c P) : s.Later c' P := by
  obtain ⟨i, d, hd, hi, hP⟩ := h
  exact ⟨i, d, hd, hbefore ▸ hi, hP⟩

theorem Moves.before (hinv : s.Inv) (h : Moves s s') (hd : d ∈ s'.calls) :
    ∀ i ∈ d.before, ∃ b, s'.calls[i]? = some b ∧ b.result.isSome := by
  intro i hi
  obtain ⟨b, hb, hresult⟩ : ∃ b, s.calls[i]? = some b ∧ b.result.isSome := by
    cases h.origin hd with
    | old c hc hbefore hreq htarget => exact hinv.before c hc i (hbefore ▸ hi)
    | made hbefore htarget => exact mem_returned.mp (hbefore ▸ hi)
    | moved j c hmoved hreq htarget hstore =>
      exact hinv.before c (List.mem_of_getElem? hmoved.was) i (hmoved.before ▸ hi)
  obtain ⟨b', hb', hgrows⟩ := h.grows i b hb
  exact ⟨b', hb', by rw [hgrows.result hresult]; exact hresult⟩

theorem Moves.stored (hinv : s.Inv) (h : Moves s s') (hd : d ∈ s'.calls) (hresult : d.result = some true) :
    d.target.isSome := by
  cases h with
  | quiet hstore hcalls hclock hticks => exact hinv.stored d (hcalls ▸ hd) hresult
  | called r =>
    rcases List.mem_append.mp hd with hold | hnew
    · exact hinv.stored d hold hresult
    · obtain rfl := List.mem_singleton.mp hnew
      cases hresult
  | changed saved hc htarget hnone =>
    rcases Pool.mem_move hd with hold | rfl
    · exact hinv.stored d hold hresult
    · simp only [Call.changed] at hresult
      split at hresult <;> cases hresult
  | applied ok hc htarget hnone =>
    rcases Pool.mem_move hd with hold | rfl
    · exact hinv.stored d hold hresult
    · exact Option.isSome_iff_exists.mpr ⟨_, htarget⟩
  | copied hk => exact hinv.stored d hd hresult

theorem Moves.since (hinv : s.Inv) (h : Moves s s') {k : Tick} (hk : k ∈ s'.ticks) : k.Since s'.clock := by
  cases h with
  | quiet hstore hcalls hclock hticks =>
    rcases hticks k hk with hold | hnew
    · exact Tick.Since.later hclock (hinv.since k hold)
    · exact hnew
  | called | changed | applied => exact hinv.since k hk
  | copied hk₀ =>
    rcases Pool.mem_move hk with hold | rfl
    · exact hinv.since k hold
    · exact hinv.since (.began _) (List.mem_of_getElem? hk₀)

/-- While an entry for a revoked target is stored, somebody has allowed it since. -/
theorem Moves.revoked (hinv : s.Inv) (h : Moves s s') (hd : d ∈ s'.calls) (hrevokes : d.Revokes t)
    {e : Entry} (he : e ∈ s'.store.entries) (htarget : e.target = t) : s'.Later d (·.Allows t) := by
  subst htarget
  cases h.origin hd with
  | old c hc hbefore hreq htarget =>
    have hc_revokes : c.Revokes e.target := ⟨hreq ▸ hrevokes.1, htarget ▸ hrevokes.2⟩
    apply Sys.Later.of_before hbefore
    rcases h.entry_origin he with hold | ⟨i, c₀, d₀, hmoved, ⟨who, req, now, id, hasks, htarget₀, -⟩, -⟩
    · exact (hinv.revoked c hc _ hc_revokes e hold rfl).grows h.grows fun _ _ => .grows
    · exact .moved hinv hc hmoved ⟨who, req, now, id, hasks, htarget₀⟩
  | made hbefore htarget =>
    have hsome := hrevokes.2
    rw [htarget] at hsome
    cases hsome
  | moved i c hmoved hreq htarget hstore =>
    -- The section of the call left no such entry.
    obtain ⟨⟨req, hrevoke⟩, hsome⟩ := hrevokes
    rw [hreq] at hrevoke
    rw [htarget, hrevoke] at hsome
    rw [hstore, hrevoke] at he
    exact (change_revoke hsome he rfl).elim

/-- What was allowed is stored, or somebody has revoked it since, or it has expired. -/
theorem Moves.allowed (hinv : s.Inv) (h : Moves s s') (hd : d ∈ s'.calls) (hallows : d.Allows t)
    (hsome : d.target.isSome) :
    s'.Standing d t ∨ s'.Later d (·.Revokes t) ∨ s'.Later d (·.Expired t s'.clock) := by
  cases h.origin hd with
  | old c hc hbefore hreq htarget =>
    have hc_allows : c.Allows t := by
      obtain ⟨who, req, now, id, hallow, ht⟩ := hallows
      exact ⟨who, req, now, id, hreq ▸ hallow, ht⟩
    rcases hinv.allowed c hc t hc_allows (htarget ▸ hsome) with ⟨e, he, rfl, hlater⟩ | hrevoked | hexpired
    · rcases h.entry_fate hinv he with hkept | hexp | ⟨i, c₀, d₀, hmoved, hrevokes | ⟨e', he', htarget', hstored⟩⟩
      · exact .inl ⟨e, hkept, rfl, .of_before hbefore (hlater.grows h.grows fun _ _ => .grows)⟩
      · refine .inr (.inr (.of_before hbefore (hlater.grows h.grows fun a b hgrows ha => ?_)))
        exact ⟨e, ha.grows hgrows, rfl, hexp⟩
      · exact .inr (.inl (.of_before hbefore (.moved hinv hc hmoved hrevokes)))
      · exact .inl ⟨e', he', htarget', .of_before hbefore (.moved hinv hc hmoved hstored)⟩
    · exact .inr (.inl (.of_before hbefore (hrevoked.grows h.grows fun _ _ => .grows)))
    · exact .inr (.inr (.of_before hbefore (hexpired.grows h.grows fun _ _ => .grows h.clock_le)))
  | made hbefore htarget =>
    rw [htarget] at hsome
    cases hsome
  | moved i c hmoved hreq htarget hstore =>
    -- The call has just stored its entry.
    obtain ⟨who, req, now, id, hallow, rfl⟩ := hallows
    obtain ⟨e, he, htarget', hasks⟩ := change_allow s.store who req now id
    rw [← hallow, hreq] at he hasks
    refine .inl ⟨e, hstore ▸ he, htarget', .of_before hmoved.before ?_⟩
    refine .moved hinv (List.mem_of_getElem? hmoved.was) hmoved ⟨hreq ▸ hasks, ?_⟩
    rw [htarget, ← hreq, hallow, htarget']
    rfl

theorem inv_step (hinv : s.Inv) (h : s.step e = some s') : s'.Inv := by
  have hmoves := step_moves h
  exact ⟨fun d hd => hmoves.before hinv hd, fun d hd => hmoves.stored hinv hd, fun k hk => hmoves.since hinv hk,
    fun d hd t ht e he htarget => hmoves.revoked hinv hd ht he htarget,
    fun d hd t ht hsome => hmoves.allowed hinv hd ht hsome⟩

/-! ## Ticks undo nothing -/

theorem inv_start (store : State) (kernel : NetList) (clock : DateTime) : (Sys.start store kernel clock).Inv :=
  ⟨by simp [Sys.start], by simp [Sys.start], by simp [Sys.start], by simp [Sys.start], by simp [Sys.start]⟩

/-- What a tick puts in while it is stored has been allowed since it was revoked. -/
theorem not_undoesRevoke (hinv : s.Inv) (htime : s.InTime e) : ¬s.UndoesRevoke e := by
  rintro ⟨c, hc, t, hrevokes, -, hputs, hnot⟩
  obtain ⟨x, hx, htarget⟩ : ∃ x ∈ s.store.entries, x.target = t := by
    cases e with
    | add j ok =>
      cases ok with
      | true =>
        exact htime t hputs
      | false => exact hputs.elim
    | rebuild j ok =>
      cases ok with
      | true =>
        obtain ⟨-, x, hx, -, htarget⟩ := hputs
        exact ⟨x, hx, htarget⟩
      | false => exact hputs.elim
    | _ => exact hputs.elim
  exact hnot (hinv.revoked c hc t hrevokes x hx htarget)

/-- What a tick takes out while no unexpired entry is for it has been revoked since
it was allowed, or has expired. -/
theorem not_undoesAllow (hinv : s.Inv) (htime : s.InTime e) : ¬s.UndoesAllow e := by
  rintro ⟨c, hc, t, hallows, hresult, htakes, hrevoked, hexpired⟩
  have hnone : ∀ x ∈ s.store.entries, x.isExpired s.clock = false → x.target.network ≠ t.network := by
    cases e with
    | remove j ok =>
      cases ok with
      | true =>
        obtain ⟨u, hk, hnet⟩ := htakes
        exact hnet ▸ htime u hk
      | false => exact htakes.elim
    | rebuild j ok =>
      cases ok with
      | true => exact htakes.2
      | false => exact htakes.elim
    | _ => exact htakes.elim
  rcases hinv.allowed c hc t hallows (hinv.stored c hc hresult) with ⟨x, hx, rfl, hlater⟩ | hlater | hlater
  · cases hexp : x.isExpired s.clock with
    | false => exact hnone x hx hexp rfl
    | true => exact hexpired (hlater.grows (.refl Call.Grows.refl _) fun a b hgrows ha => ⟨x, ha.grows hgrows, rfl, hexp⟩)
  · exact hrevoked hlater
  · exact hexpired hlater

end Steps

/-- In every run of requests and ticks whose ticks add and remove in time, no step of
a tick undoes a request that has returned. -/
theorem ticks_undo_nothing (store : State) (kernel : NetList) (clock : DateTime) (es : List Event)
    (hmeet : Lts.StepsMeet Sys.step Sys.InTime (.start store kernel clock) es) :
    Lts.StepsMeet Sys.step (fun s e => ¬s.UndoesRevoke e ∧ ¬s.UndoesAllow e) (.start store kernel clock) es := by
  refine Lts.StepsMeet.of_invariant (I := Sys.Inv) ?_ ?_ (inv_start store kernel clock) hmeet
  · intro s e s' hinv _ hstep
    exact inv_step hinv hstep
  · intro s e hinv htime
    exact ⟨not_undoesRevoke hinv htime, not_undoesAllow hinv htime⟩

/-! ## The kernel changes by these steps only -/

theorem mem_load {entries : List Entry} {n : IpNet} :
    n ∈ (NetList.load entries).nets ↔ ∃ e ∈ entries, e.target.network = n := by
  induction entries with
  | nil => simp [NetList.load]
  | cons e es ih => simp [NetList.load, NetList.add, ih, eq_comm]

section Kernel

variable {s s' : Sys} {e : Event} {n t : IpNet}

/-- What a step does to the kernel set. -/
inductive KernelStep (s s' : Sys) : Event → Prop where
  | kept {e : Event} (hkernel : s'.kernel = s.kernel) : KernelStep s s' e
  | requested (i : ℕ) (ok : Bool) : KernelStep s s' (.apply i ok)
  | lapsed {n : IpNet} (hkernel : s'.kernel = s.kernel.remove n) : KernelStep s s' (.lapse n)
  | added {j : ℕ} {t : IpNet} (hk : s.ticks[j]?.bind Tick.adds = some t) (hkernel : s'.kernel = s.kernel.add t) :
      KernelStep s s' (.add j true)
  | removed {j : ℕ} {t : IpNet} (hk : s.ticks[j]?.bind Tick.removes = some t)
      (hkernel : s'.kernel = s.kernel.remove t) : KernelStep s s' (.remove j true)
  | rebuilt {j : ℕ} (hk : s.ticks[j]? = some .rebuilding)
      (hkernel : s'.kernel = .load (s.store.entries.filter fun e => !e.isExpired s.clock)) :
      KernelStep s s' (.rebuild j true)

theorem step_kernel (h : s.step e = some s') : KernelStep s s' e := by
  cases e with
  | lapse n =>
    cases h
    exact .lapsed rfl
  | apply i ok => exact .requested i ok
  | call | tick =>
    cases h
    exact .kept rfl
  | wait | change | copy =>
    simp only [Sys.step] at h
    split at h <;> cases h
    exact .kept rfl
  | list j O ok =>
    simp only [Sys.step] at h
    split at h <;> cases h
    cases ok <;> exact .kept rfl
  | add j ok =>
    simp only [Sys.step] at h
    split at h <;> cases h
    next entries t missing stale hk =>
    -- an element lands only if the backend took it and its entry was still in the store
    cases hadd : ok && (entries.find? fun e => e.target = t).isSome with
    | true =>
      obtain ⟨rfl, -⟩ := (Bool.and_eq_true _ _).mp hadd
      exact .added (t := t) (by simp [hk, Tick.adds]) (by simp only [Sys.addTarget, hadd, if_true])
    | false => exact .kept (by simp only [Sys.addTarget, hadd, Bool.false_eq_true, if_false])
  | remove j ok =>
    simp only [Sys.step] at h
    split at h <;> cases h
    next entries t stale hk =>
    cases ok with
    | true => exact .removed (by simp [hk, Tick.removes]) rfl
    | false => exact .kept rfl
  | rebuild j ok =>
    simp only [Sys.step] at h
    split at h <;> cases h
    next hk =>
    cases ok with
    | true => exact .rebuilt hk rfl
    | false => exact .kept rfl

/-- The step is a request's, or a tick's that puts the network into the kernel set. -/
def MayPut (n : IpNet) (s : Sys) (e : Event) : Prop := (∃ i ok, e = .apply i ok) ∨ ∃ t, s.Puts t e ∧ t.network = n

/-- The step is a request's, a timeout, or a tick's that takes the target out of the kernel set. -/
def MayTake (t : IpNet) (s : Sys) (e : Event) : Prop := (∃ i ok, e = .apply i ok) ∨ (∃ n, e = .lapse n) ∨ s.Takes t e

/-- A network that comes into the kernel set is put there by a request or a tick. -/
theorem puts_of_added (h : s.step e = some s') (hn : n ∈ s'.kernel.nets) (hold : n ∉ s.kernel.nets) : MayPut n s e := by
  cases step_kernel h with
  | requested i ok => exact .inl ⟨i, ok, rfl⟩
  | kept hkernel => exact (hold (hkernel ▸ hn)).elim
  | @added j t hk hkernel =>
    rw [hkernel] at hn
    rcases List.mem_cons.mp hn with rfl | hn
    · exact .inr ⟨t, hk, rfl⟩
    · exact (hold hn).elim
  | lapsed hkernel | removed hk hkernel =>
    rw [hkernel] at hn
    exact (hold (List.mem_of_mem_filter hn)).elim
  | rebuilt hk hkernel =>
    rw [hkernel] at hn
    obtain ⟨x, hx, htarget⟩ := mem_load.mp hn
    obtain ⟨hx, hexp⟩ := List.mem_filter.mp hx
    exact .inr ⟨x.target, ⟨hk, x, hx, by simpa using hexp, rfl⟩, htarget⟩

/-- A network that goes out of the kernel set is taken out by a request or a tick, or
its timeout ran out. -/
theorem takes_of_removed (h : s.step e = some s') (hgone : t.network ∉ s'.kernel.nets) (ht : t.network ∈ s.kernel.nets) :
    MayTake t s e := by
  cases step_kernel h with
  | requested i ok => exact .inl ⟨i, ok, rfl⟩
  | lapsed _ => exact .inr (.inl ⟨_, rfl⟩)
  | kept hkernel => exact (hgone (hkernel ▸ ht)).elim
  | added hk hkernel =>
    rw [hkernel] at hgone
    exact (hgone (List.mem_cons_of_mem _ ht)).elim
  | @removed j u hk hkernel =>
    refine .inr (.inr ⟨u, hk, ?_⟩)
    by_contra hne
    rw [hkernel] at hgone
    exact hgone (List.mem_filter.mpr ⟨ht, by simpa using Ne.symm hne⟩)
  | rebuilt hk hkernel =>
    refine .inr (.inr ⟨hk, fun x hx hexp htarget => ?_⟩)
    rw [hkernel] at hgone
    exact hgone (mem_load.mpr ⟨x, List.mem_filter.mpr ⟨hx, by simp [hexp]⟩, htarget⟩)

/-- In every run, what is in the kernel set and was not at first has been there since a step that may
have put it in, and what is gone has been gone since a step that may have taken it out. -/
theorem kernel_told (store : State) (kernel : NetList) (clock : DateTime) (es : List Event)
    (hrun : Lts.run Sys.step (.start store kernel clock) es = some s) (t : IpNet) :
    (t.network ∉ kernel.nets → t.network ∈ s.kernel.nets →
      Lts.EverSince Sys.step (MayPut t.network) (fun s => t.network ∈ s.kernel.nets) (.start store kernel clock) es) ∧
    (t.network ∈ kernel.nets → t.network ∉ s.kernel.nets →
      Lts.EverSince Sys.step (MayTake t) (fun s => t.network ∉ s.kernel.nets) (.start store kernel clock) es) := by
  refine ⟨fun hfirst hlast => ?_, fun hfirst hlast => ?_⟩
  · refine Lts.everSince_of_run (I := fun _ => True) (fun _ _ _ _ _ => trivial) ?_ trivial hfirst hrun hlast
    exact fun _ _ _ _ hold hstep hn => puts_of_added hstep hn hold
  · refine Lts.everSince_of_run (I := fun _ => True) (fun _ _ _ _ _ => trivial) ?_ trivial (not_not.mpr hfirst) hrun hlast
    exact fun _ _ _ _ hold hstep hgone => takes_of_removed hstep hgone (not_not.mp hold)

end Kernel

/-! ## Uninterrupted -/

/-- The system and the world of the handlers have the same store and kernel. -/
structure Matches (s : Sys) (w : World NetList) : Prop where
  store : w.store = s.store
  kernel : w.host = s.kernel

/-- The whole request, as the server handles it. -/
def ListRequest.handle (H : Host NetList) : ListRequest → Act (World NetList) ApiError Unit
  | .allow who req now id => do
    let _ ← Ipgate.allow H who req now id
  | .revoke req => Ipgate.revoke H req

section Uninterrupted

variable {s : Sys} {w : World NetList} {r : ListRequest} {t : IpNet} {entries : List Entry}
variable {missing stale : List IpNet} {j : ℕ}

/-- A handler whose calls all succeed changes the store as its section does, and
the kernel if the section succeeds. -/
theorem handle_listKernel : Act.wp (r.handle listKernel.toHost)
    (fun res w' => w'.store = (r.change w.store).2 ∧ match (r.change w.store).1 with
      | some t => res = .ok () ∧ w'.host = r.call t w.host
      | none => res = .error entryNotFound ∧ w'.host = w.host) w := by
  cases r with
  | allow who req now id => exact ⟨rfl, rfl, rfl⟩
  | revoke req =>
    simp only [ListRequest.handle, ListRequest.change, Ipgate.revoke, Act.wp_bind, Act.wp_get, Act.andThen_ok]
    cases revokeTarget w.store req with
    | none => exact ⟨rfl, rfl, rfl⟩
    | some t =>
      simp only [Act.wp_bind, onStore, Act.wp_update, Act.andThen_ok, rejectIf, Act.wp_onlyIf]
      cases (w.store.revokeByTarget t).1 with
      | false => exact ⟨fun _ => ⟨rfl, rfl, rfl⟩, fun h => absurd h (by decide)⟩
      | true => exact ⟨fun h => absurd h (by decide), fun _ => ⟨rfl, rfl, rfl⟩⟩

/-- A request that is not interrupted does what its handler does. -/
theorem request_uninterrupted (hmatch : Matches s w) :
    ∃ es s', Lts.run Sys.step s (.call r :: es) = some s' ∧
      Act.wp (r.handle listKernel.toHost) (fun _ w' => Matches s' w') w := by
  let i := s.calls.length
  let c : Call := ⟨r, s.returned, none, none⟩
  let s₁ : Sys := { s with calls := s.calls ++ [c] }
  have hc : s₁.calls[i]? = some c := Pool.getElem?_started
  have hchange : s₁.step (.change i true) = some (s₁.change i c true) := by
    simp only [Sys.step, hc]
    rfl
  obtain ⟨hstore, hhandled⟩ := handle_listKernel (r := r) (w := w)
  rw [hmatch.store] at hstore hhandled
  cases htarget : (r.change s.store).1 with
  | none =>
    rw [htarget] at hhandled
    refine ⟨[.change i true], _, Lts.run_cons_iff.mpr ⟨s₁, rfl, Lts.run_cons_iff.mpr ⟨_, hchange, rfl⟩⟩, hstore, ?_⟩
    exact hhandled.2.trans hmatch.kernel
  | some t =>
    rw [htarget] at hhandled
    have hc' : (s₁.change i c true).calls[i]? = some (c.changed (r.change s.store).1 true) := Pool.getElem?_moved hc
    rw [htarget] at hc'
    have happly : (s₁.change i c true).step (.apply i true) =
        some ((s₁.change i c true).apply i (c.changed (some t) true) t true) := by
      simp only [Sys.step, hc']
      rfl
    refine ⟨[.change i true, .apply i true], _, Lts.run_cons_iff.mpr ⟨s₁, rfl, Lts.run_cons_iff.mpr ⟨_, hchange,
      Lts.run_cons_iff.mpr ⟨_, happly, rfl⟩⟩⟩, hstore, ?_⟩
    rw [hmatch.kernel] at hhandled
    exact hhandled.2

theorem adds_uninterrupted (hmatch : Matches s w) (hk : s.ticks[j]? = some (.acting entries missing stale)) :
    ∃ s', Lts.run Sys.step s (List.replicate missing.length (.add j true)) = some s' ∧
      s'.ticks[j]? = some (.acting entries [] stale) ∧
      Act.wp (Act.forEach (addMissing listKernel.toHost entries) missing)
        (fun r w' => r = .ok () ∧ Matches s' w') w := by
  induction missing generalizing s w with
  | nil => exact ⟨s, rfl, hk, rfl, hmatch⟩
  | cons t missing ih =>
    have hstep : s.step (.add j true) = some (s.addTarget j entries t missing stale true) := by
      simp only [Sys.step, hk]
    have hmatch' : Act.wp (addMissing listKernel.toHost entries t)
        (fun r w' => r = .ok () ∧ Matches (s.addTarget j entries t missing stale true) w') w := by
      unfold addMissing Sys.addTarget
      cases hfind : entries.find? fun e => e.target = t with
      | none => exact ⟨rfl, hmatch.store, hmatch.kernel⟩
      | some e =>
        have htarget : e.target = t := by simpa using List.find?_some hfind
        refine ⟨rfl, hmatch.store, ?_⟩
        show w.host.add e.target = s.kernel.add t
        rw [hmatch.kernel, htarget]
    obtain ⟨s', hrun, hend, hrest⟩ := ih hmatch'.2 (Pool.getElem?_moved hk)
    refine ⟨s', Lts.run_cons_iff.mpr ⟨_, hstep, hrun⟩, hend, ?_⟩
    unfold Act.forEach
    rw [Act.wp_bind, Act.wp, hmatch'.1]
    exact hrest

theorem removes_uninterrupted (hmatch : Matches s w) (hk : s.ticks[j]? = some (.acting entries [] stale)) :
    ∃ s', Lts.run Sys.step s (List.replicate stale.length (.remove j true)) = some s' ∧
      Act.wp (Act.forEach (removeStale listKernel.toHost) stale) (fun r w' => r = .ok () ∧ Matches s' w') w := by
  induction stale generalizing s w with
  | nil => exact ⟨s, rfl, rfl, hmatch⟩
  | cons t stale ih =>
    have hstep : s.step (.remove j true) = some (s.removeTarget j entries t stale true) := by
      simp only [Sys.step, hk]
    have hmatch' : Matches (s.removeTarget j entries t stale true) (removeStale listKernel.toHost t w).2 := by
      refine ⟨hmatch.store, ?_⟩
      show w.host.remove t = s.kernel.remove t
      rw [hmatch.kernel]
    obtain ⟨s', hrun, hrest⟩ := ih hmatch' (Pool.getElem?_moved hk)
    refine ⟨s', Lts.run_cons_iff.mpr ⟨_, hstep, hrun⟩, ?_⟩
    unfold Act.forEach
    rw [Act.wp_bind]
    exact hrest

theorem pruneAndSnapshot_listKernel (now : DateTime) (w : World NetList) :
    Act.wp (pruneAndSnapshot listKernel.toHost now)
      (fun r w' => r = .ok (w.store.pruneExpired now).2.entries ∧
        w' = { w with store := (w.store.pruneExpired now).2 }) w := by
  simp only [pruneAndSnapshot, Act.wp_bind, onStore, Act.wp_update, Act.andThen_ok, Act.wp_onlyIf, Act.wp_ignore]
  exact ⟨fun _ => ⟨rfl, rfl⟩, fun _ => ⟨rfl, rfl⟩⟩

/-- A tick that is not interrupted does what a round of the loop does. -/
theorem tick_uninterrupted (cfg : AgentConfig) (O : HashOrder) (hmatch : Matches s w) :
    ∃ es s', Lts.run Sys.step s (.tick :: es) = some s' ∧
      Act.wp (reconcileTick listKernel.toHost cfg O s.clock) (fun _ w' => Matches s' w') w := by
  let j := s.ticks.length
  let entries := (s.store.pruneExpired s.clock).2.entries
  let s₁ : Sys := { s with ticks := s.ticks ++ [.began s.clock] }
  have hk₁ : s₁.ticks[j]? = some (.began s.clock) := Pool.getElem?_started
  have hcopy : s₁.step (.copy j) = some (s₁.copy j s.clock) := by
    simp only [Sys.step, hk₁]
  have hk₂ : (s₁.copy j s.clock).ticks[j]? = some (.copied s.clock entries) := Pool.getElem?_moved hk₁
  let s₃ : Sys := (s₁.copy j s.clock).list j s.clock entries O
  have hlist : (s₁.copy j s.clock).step (.list j O true) = some s₃ := by
    simp only [Sys.step, hk₂]
    rfl
  let d := diff O entries (s.kernel.nets.map fun n => ⟨n, none⟩) s.clock
  have hk₃ : s₃.ticks[j]? = some (.acting entries d.missingInKernel d.staleInKernel) := Pool.getElem?_moved hk₂
  let w₃ : World NetList := { w with store := (w.store.pruneExpired s.clock).2 }
  have hmatch₃ : Matches s₃ w₃ := ⟨congrArg (fun st => (st.pruneExpired s.clock).2) hmatch.store, hmatch.kernel⟩
  obtain ⟨s₄, hrun₄, hk₄, hadds⟩ := adds_uninterrupted hmatch₃ hk₃
  obtain ⟨s₅, hrun₅, hremoves⟩ := removes_uninterrupted hadds.2 hk₄
  refine ⟨.copy j :: .list j O true :: (List.replicate d.missingInKernel.length (.add j true) ++
    List.replicate d.staleInKernel.length (.remove j true)), s₅, ?_, ?_⟩
  · exact Lts.run_cons_iff.mpr ⟨s₁, rfl, Lts.run_cons_iff.mpr ⟨_, hcopy, Lts.run_cons_iff.mpr ⟨s₃, hlist,
      Lts.run_append_iff.mpr ⟨s₄, hrun₄, hrun₅⟩⟩⟩⟩
  · unfold reconcileTick
    rw [Act.wp_bind]
    apply Act.wp_mono (pruneAndSnapshot_listKernel s.clock w)
    rintro _ _ ⟨rfl, rfl⟩
    rw [Act.andThen_ok, Act.wp_bind, Act.wp_attempt]
    -- The kernel lists what the system lists.
    show Act.wp (do
      let d := diff O (w.store.pruneExpired s.clock).2.entries (w.host.nets.map fun n => ⟨n, none⟩) s.clock
      Act.forEach (addMissing listKernel.toHost (w.store.pruneExpired s.clock).2.entries) d.missingInKernel
      Act.forEach (removeStale listKernel.toHost) d.staleInKernel) (fun _ w' => Matches s₅ w') w₃
    rw [hmatch.store, hmatch.kernel, Act.wp_bind, Act.wp, hadds.1]
    exact hremoves.2

end Uninterrupted

/-! ### An old copy -/

def noKernel : NetList := .load []

/-- The backend refuses a new target, and a tick adds it. -/
theorem tick_adds_in_time :
    Lts.StepsMeet Sys.step (fun s e => ¬s.UndoesRevoke e ∧ ¬s.UndoesAllow e) (.start .default noKernel 0)
      [.call (.allow ⟨0⟩ ⟨officeNet, "", none⟩ 0 ⟨0⟩), .change 0 true, .apply 0 false,
        .tick, .copy 0, .list 0 .asIs true, .add 0 true] :=
  ticks_undo_nothing .default noKernel 0 _ (by decide +kernel)

/-- The store and the kernel have a target. -/
def officeStart : Sys :=
  .start { State.default with entries := [⟨⟨0⟩, officeNet, "", none, 0, ⟨0⟩⟩] } (noKernel.add officeNet) 0

/-- A tick copies the entries, then the target is revoked, then the tick lists the
kernel. -/
def revokeBehindCopy : List Event :=
  [.tick, .copy 0, .call (.revoke (.target officeNet)), .change 0 true, .apply 0 true, .list 0 .asIs true]

/-- The request to revoke has returned, and the tick puts the target back: the kernel
has it again and the store does not. -/
theorem tick_puts_back :
    ¬Lts.StepsMeet Sys.step (fun s e => ¬s.UndoesRevoke e ∧ ¬s.UndoesAllow e) officeStart
        (revokeBehindCopy ++ [.add 0 true]) ∧
      ∃ s, Lts.run Sys.step officeStart (revokeBehindCopy ++ [.add 0 true]) = some s ∧
        officeNet ∈ s.kernel.nets ∧ s.store.entries = [] := by
  refine ⟨fun hmeet => ?_, _, rfl, by decide +kernel, rfl⟩
  have hrun : Lts.run Sys.step officeStart revokeBehindCopy = some _ := rfl
  obtain ⟨-, ⟨hnot, -⟩, -⟩ := (Lts.stepsMeet_append hrun).mp hmeet
  refine hnot ⟨_, List.mem_singleton_self _, officeNet, ⟨⟨_, rfl⟩, rfl⟩, rfl, rfl, ?_⟩
  -- The only request is the one to revoke.
  rintro ⟨i, d, hd, -, who, req, now, id, hallow, -⟩
  obtain rfl := List.mem_singleton.mp (List.mem_of_getElem? hd)
  cases hallow

end Ipgate.Allowlist
