-- SUMMARY: The limit of connections per device: guards that count themselves, and that the counts stay exact.
import Ipgate.Lib.Lts
import Ipgate.Lib.Slots
import Ipgate.Proto.Basic

/-!
# Connections per device

A connection of a device holds a guard, which is counted under the key of the device from when it
is acquired to when it is dropped. The key has no entry when none of its guards is left.
-/

namespace Ipgate.ConnGuard

open Slots

/-- The connections that each device has, by its key. -/
abbrev DeviceConns := AList fun _ : NoisePublicKey => ℕ

structure DeviceConnGuard where
  key : NoisePublicKey
  deriving DecidableEq

def PER_DEVICE_MAX_CONNS : ℕ := 8

/-- The entry of a key, which is put at 0 where there is none. -/
def orInsertZero (m : DeviceConns) (key : NoisePublicKey) : ℕ × DeviceConns :=
  match m.lookup key with
  | some n => (n, m)
  | none => (0, m.insert key 0)

/-- The lock is held throughout. -/
def DeviceConnGuard.acquire (m : DeviceConns) (key : NoisePublicKey) (max : ℕ) : Option DeviceConnGuard × DeviceConns :=
  let (n, m) := orInsertZero m key
  if n ≥ max then (none, m) else (some ⟨key⟩, m.insert key (n + 1))

def DeviceConnGuard.drop (m : DeviceConns) (g : DeviceConnGuard) : DeviceConns :=
  match m.lookup g.key with
  | some n => if n - 1 = 0 then (m.insert g.key (n - 1)).erase g.key else m.insert g.key (n - 1)
  | none => m

open DeviceConnGuard

/-- The guard of a connection whose handshake has ended well. Without one it is closed. -/
def devGuard (m : DeviceConns) (peerKey : NoisePublicKey) : Option DeviceConnGuard × DeviceConns :=
  acquire m peerKey PER_DEVICE_MAX_CONNS

/-! ## The guards of the agent -/

/-- The table, and the guards that have not been dropped. -/
structure Guards where
  conns : DeviceConns
  live : List DeviceConnGuard

inductive Event where
  | acquire (key : NoisePublicKey)
  /-- Any of the guards ends. -/
  | drop (i : ℕ)

namespace Guards

def new : Guards := ⟨∅, []⟩

/-- The keys of the live guards. -/
def held (s : Guards) : Multiset NoisePublicKey := s.live.map DeviceConnGuard.key

/-- The number of live guards of a key. -/
def liveCount (s : Guards) (key : NoisePublicKey) : ℕ := s.live.countP fun g => g.key = key

/-- Whether the key would get a guard now. -/
def canAcquire (max : ℕ) (s : Guards) (key : NoisePublicKey) : Bool := (acquire s.conns key max).1.isSome

/-- The key that an event is about. -/
def keyOf (s : Guards) : Event → Option NoisePublicKey
  | .acquire key => some key
  | .drop i => s.live[i]?.map DeviceConnGuard.key

end Guards

/-- A guard that is not there cannot be dropped. -/
def step (max : ℕ) (s : Guards) : Event → Option Guards
  | .acquire key =>
    let (guard, conns) := acquire s.conns key max
    some ⟨conns, s.live ++ guard.toList⟩
  | .drop i => s.live[i]?.map fun g => ⟨drop s.conns g, s.live.eraseIdx i⟩

/-! ## Acquiring and dropping -/

section Spec

variable {max : ℕ} {m : DeviceConns} {held : Multiset NoisePublicKey} {key : NoisePublicKey} {g : DeviceConnGuard}

theorem orInsertZero_of_ne_zero (h : Counts m held) (hkey : held.count key ≠ 0) :
    orInsertZero m key = (held.count key, m) := by
  unfold orInsertZero
  rw [h.lookup_of_ne_zero hkey]

theorem orInsertZero_of_eq_zero (h : Counts m held) (hkey : held.count key = 0) :
    orInsertZero m key = (0, m.insert key 0) := by
  unfold orInsertZero
  rw [h.lookup_of_eq_zero hkey]

/-- A refusal leaves the table as it was: with a maximum above 0 the key has an entry. -/
theorem acquire_of_not_free (hmax : 1 ≤ max) (h : Counts m held) (hfree : ¬Free max held key) :
    acquire m key max = (none, m) := by
  have hge : held.count key ≥ max := Nat.not_lt.mp hfree
  unfold acquire
  rw [orInsertZero_of_ne_zero h (by omega)]
  exact if_pos hge

theorem acquire_of_free (h : Counts m held) (hfree : Free max held key) :
    ∃ m', acquire m key max = (some ⟨key⟩, m') ∧ Counts m' (key ::ₘ held) := by
  unfold acquire
  by_cases hzero : held.count key = 0
  · have hlt : ¬0 ≥ max := by
      unfold Free at hfree
      omega
    rw [orInsertZero_of_eq_zero h hzero]
    dsimp only
    rw [if_neg hlt, AList.insert_insert]
    exact ⟨_, rfl, h.insert_cons (by rw [hzero])⟩
  · rw [orInsertZero_of_ne_zero h hzero]
    dsimp only
    rw [if_neg (Nat.not_le.mpr hfree)]
    exact ⟨_, rfl, h.insert_cons rfl⟩

theorem acquire_isSome (hmax : 1 ≤ max) (h : Counts m held) :
    (acquire m key max).1.isSome = true ↔ Free max held key := by
  by_cases hfree : Free max held key
  · obtain ⟨m', heq, -⟩ := acquire_of_free h hfree
    rw [heq]
    exact iff_of_true rfl hfree
  · rw [acquire_of_not_free hmax h hfree]
    exact iff_of_false Bool.false_ne_true hfree

/-- A live guard is taken out of the count, and its entry goes with the last one. -/
theorem counts_drop (h : Counts m held) (hmem : g.key ∈ held) : Counts (drop m g) (held.erase g.key) := by
  have hpos : 0 < held.count g.key := Multiset.count_pos.mpr hmem
  unfold drop
  rw [h.lookup_of_ne_zero (by omega)]
  dsimp only
  split
  · next hone => exact h.erase_erase (by omega) _
  · next hmore => exact h.insert_erase (by omega) hmore

end Spec

/-! ## Runs -/

section Runs

variable {max : ℕ} {s s' : Guards} {e : Event} {es : List Event} {key : NoisePublicKey} {i : ℕ} {g : DeviceConnGuard}

theorem count_held (s : Guards) (key : NoisePublicKey) : s.held.count key = s.liveCount key := by
  unfold Guards.held Guards.liveCount
  rw [Multiset.coe_count, List.count, List.countP_map]
  rfl

/-- What a drop leaves. -/
theorem held_eraseIdx (h : s.live[i]? = some g) (conns : DeviceConns) :
    g.key ∈ s.held ∧ (Guards.mk conns (s.live.eraseIdx i)).held = s.held.erase g.key := by
  obtain ⟨hlt, rfl⟩ := List.getElem?_eq_some_iff.mp h
  have hperm := (List.getElem_cons_eraseIdx_perm hlt).map DeviceConnGuard.key
  have hheld : s.live[i].key ::ₘ (Guards.mk conns (s.live.eraseIdx i)).held = s.held := Multiset.coe_eq_coe.mpr hperm
  rw [← hheld, Multiset.erase_cons_head]
  exact ⟨Multiset.mem_cons_self _ _, rfl⟩

theorem held_concat (conns : DeviceConns) : (Guards.mk conns (s.live ++ [g])).held = g.key ::ₘ s.held := by
  unfold Guards.held
  rw [List.map_append, List.map_singleton, Multiset.cons_coe, Multiset.coe_eq_coe]
  exact List.perm_append_singleton g.key _

theorem step_acquire : step max s (.acquire key) =
    some ⟨(acquire s.conns key max).2, s.live ++ (acquire s.conns key max).1.toList⟩ := rfl

/-- What a step can do: a guard is acquired where the key has fewer than the maximum, and one that
is live is dropped. -/
theorem step_cases (hmax : 1 ≤ max) (h : Counts s.conns s.held) (hstep : step max s e = some s') :
    Counts s'.conns s'.held ∧
      ((∃ key, e = .acquire key ∧ s'.held = take max s.held key) ∨
        ∃ i g, e = .drop i ∧ s.live[i]? = some g ∧ s'.held = s.held.erase g.key) := by
  cases e with
  | acquire key =>
    rw [step_acquire] at hstep
    by_cases hfree : Free max s.held key
    · obtain ⟨m', hacquire, hcounts⟩ := acquire_of_free h hfree
      have htake : take max s.held key = key ::ₘ s.held := if_pos hfree
      rw [hacquire] at hstep
      cases hstep
      have hheld := held_concat (s := s) (g := ⟨key⟩) m'
      refine ⟨?_, .inl ⟨key, rfl, hheld.trans htake.symm⟩⟩
      have hafter : Counts m' (Guards.mk m' (s.live ++ [⟨key⟩])).held := by
        rw [hheld]
        exact hcounts
      exact hafter
    · have htake : take max s.held key = s.held := if_neg hfree
      rw [acquire_of_not_free hmax h hfree, Option.toList_none, List.append_nil] at hstep
      cases hstep
      -- A refused key leaves the table as it was.
      exact ⟨h, .inl ⟨key, rfl, htake.symm⟩⟩
  | drop i =>
    obtain ⟨g, hg, rfl⟩ := Option.map_eq_some_iff.mp hstep
    obtain ⟨hmem, hheld⟩ := held_eraseIdx hg (drop s.conns g)
    refine ⟨?_, .inr ⟨i, g, rfl, hg, hheld⟩⟩
    rw [hheld]
    exact counts_drop h hmem

theorem counts_of_run (hmax : 1 ≤ max) (hrun : Lts.run (step max) Guards.new es = some s) : Counts s.conns s.held :=
  Lts.run_invariant (I := fun s => Counts s.conns s.held) (fun _ _ _ h hstep => (step_cases hmax h hstep).1) counts_empty
    hrun

/-- A device never has more guards than the maximum. -/
theorem liveCount_le (hmax : 1 ≤ max) (hrun : Lts.run (step max) Guards.new es = some s) (key : NoisePublicKey) :
    s.liveCount key ≤ max := by
  have hboth : Counts s.conns s.held ∧ Within max s.held := by
    refine Lts.run_invariant (I := fun s => Counts s.conns s.held ∧ Within max s.held) ?_ ⟨counts_empty, within_zero⟩ hrun
    intro s e s' h hstep
    obtain ⟨hcounts, hcase⟩ := step_cases hmax h.1 hstep
    refine ⟨hcounts, ?_⟩
    cases hcase with
    | inl hacquire =>
      obtain ⟨key, -, hheld⟩ := hacquire
      rw [hheld]
      exact h.2.take key
    | inr hdrop =>
      obtain ⟨i, g, -, -, hheld⟩ := hdrop
      rw [hheld]
      exact h.2.erase g.key
  rw [← count_held]
  exact hboth.2 key

theorem canAcquire_iff (hmax : 1 ≤ max) (h : Counts s.conns s.held) :
    s.canAcquire max key = true ↔ Free max s.held key := acquire_isSome hmax h

/-- A step about one key is not noticed by another. -/
theorem canAcquire_step (hmax : 1 ≤ max) (h : Counts s.conns s.held) (hstep : step max s e = some s')
    (hkey : s.keyOf e ≠ some key) : s'.canAcquire max key = s.canAcquire max key := by
  obtain ⟨hcounts, hcase⟩ := step_cases hmax h hstep
  rw [Bool.eq_iff_iff, canAcquire_iff hmax hcounts, canAcquire_iff hmax h]
  cases hcase with
  | inl hacquire =>
    obtain ⟨k, rfl, hheld⟩ := hacquire
    have hne : key ≠ k := fun heq => hkey (congrArg some heq.symm)
    rw [hheld]
    exact free_take_of_ne hne
  | inr hdrop =>
    obtain ⟨i, g, rfl, hg, hheld⟩ := hdrop
    have hne : key ≠ g.key := by
      rintro rfl
      exact hkey (congrArg (Option.map DeviceConnGuard.key) hg)
    rw [hheld]
    exact free_erase_of_ne hne

/-- The table counts the live guards, these decide who may have another, and a device is not
affected by the connections of others. -/
theorem counts_exact (max : ℕ) (hmax : 1 ≤ max) (es : List Event) (s : Guards)
    (hrun : Lts.run (step max) Guards.new es = some s) :
    (∀ key, s.conns.lookup key = if s.liveCount key = 0 then none else some (s.liveCount key)) ∧
    (∀ key, s.canAcquire max key = true ↔ s.liveCount key < max) ∧
    ∀ e s' key, step max s e = some s' → s.keyOf e ≠ some key → s'.canAcquire max key = s.canAcquire max key := by
  have h := counts_of_run hmax hrun
  refine ⟨fun key => ?_, fun key => ?_, fun e s' key hstep hkey => canAcquire_step hmax h hstep hkey⟩
  · rw [← count_held]
    exact h key
  · rw [← count_held]
    exact canAcquire_iff hmax h

/-- Three connections of a phone, the third of which is refused, and one of a laptop; two of them end. -/
def twoDevices : List Event :=
  [.acquire "phone", .acquire "laptop", .acquire "phone", .acquire "phone", .drop 1, .drop 0]

theorem counts_exact_twoDevices : ∃ s, Lts.run (step 2) Guards.new twoDevices = some s ∧
    s.conns.lookup "phone" = some 1 ∧ s.conns.lookup "laptop" = none ∧ s.canAcquire 2 "phone" = true := by
  have hlive : (Lts.run (step 2) Guards.new twoDevices).map (fun s => (s.liveCount "phone", s.liveCount "laptop")) =
      some (1, 0) := by decide +kernel
  obtain ⟨s, hrun, hpair⟩ := Option.map_eq_some_iff.mp hlive
  obtain ⟨hphone, hlaptop⟩ := Prod.mk.inj hpair
  obtain ⟨hcounts, hacquire, -⟩ := counts_exact 2 (by decide) twoDevices s hrun
  refine ⟨s, hrun, ?_, ?_, (hacquire "phone").mpr ?_⟩
  · rw [hcounts, hphone]
    rfl
  · rw [hcounts, hlaptop]
    rfl
  · rw [hphone]
    decide

end Runs

end Ipgate.ConnGuard
