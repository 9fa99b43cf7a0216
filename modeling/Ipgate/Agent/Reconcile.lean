-- SUMMARY: The reconcile tick: the difference between store and kernel, and bringing the kernel in line.
import Mathlib.Data.List.Dedup
import Ipgate.Agent.Nft.Backend

/-!
# Reconciliation

A tick removes what has expired from the store, reads the kernel sets, and adds
and removes what differs. When the kernel cannot be read it rebuilds the whole
table instead.
-/

namespace Ipgate

open Net Act

/-! ## The difference -/

/-- The order in which a hash set gives out its elements: any order. -/
structure HashOrder where
  order : List IpNet → List IpNet
  perm : ∀ l, (order l).Perm l

/-- The elements of the first set that are not in the second. -/
def HashOrder.difference (O : HashOrder) (a b : List IpNet) : List IpNet :=
  O.order (a.dedup.filter fun n => n ∉ b)

/-- The elements as they stand. -/
def HashOrder.asIs : HashOrder := ⟨id, fun l => List.Perm.refl l⟩

@[simp] theorem HashOrder.mem_difference {O : HashOrder} {a b : List IpNet} {n : IpNet} :
    n ∈ O.difference a b ↔ n ∈ a ∧ n ∉ b := by
  unfold HashOrder.difference
  rw [(O.perm _).mem_iff]
  simp

/-- What the kernel lacks, what it has too much, and what the store should forget.
Targets are compared as they are spelled. -/
def diff (O : HashOrder) (desired : List Entry) (kernel : List KernelElement) (now : DateTime) : Diff :=
  let active := (desired.filter fun e => !e.isExpired now).map Entry.target
  let inKernel := kernel.map KernelElement.target
  { missingInKernel := O.difference active inKernel
    staleInKernel := O.difference inKernel active
    expired := (desired.filter fun e => e.isExpired now).map Entry.target }

section DiffSpec

variable {O : HashOrder} {desired : List Entry} {kernel : List KernelElement} {now : DateTime} {n : IpNet}

/-- The target of some unexpired entry. -/
def ActiveTarget (entries : List Entry) (now : DateTime) (n : IpNet) : Prop :=
  ∃ e ∈ entries, e.isExpired now = false ∧ e.target = n

def Listed (kernel : List KernelElement) (n : IpNet) : Prop := ∃ x ∈ kernel, x.target = n

theorem mem_missingInKernel : n ∈ (diff O desired kernel now).missingInKernel ↔
    ActiveTarget desired now n ∧ ¬Listed kernel n := by
  simp [diff, ActiveTarget, Listed, and_assoc]

theorem mem_staleInKernel : n ∈ (diff O desired kernel now).staleInKernel ↔
    Listed kernel n ∧ ¬ActiveTarget desired now n := by
  simp [diff, ActiveTarget, Listed, and_assoc]

theorem mem_expired : n ∈ (diff O desired kernel now).expired ↔
    ∃ e ∈ desired, e.isExpired now ∧ e.target = n := by
  simp [diff, and_assoc]

/-- Nothing differs exactly when the same targets are active and listed, and no
entry has expired. -/
theorem diff_isEmpty_iff : (diff O desired kernel now).isEmpty = true ↔
    (∀ n, ActiveTarget desired now n ↔ Listed kernel n) ∧ ∀ e ∈ desired, e.isExpired now = false := by
  simp only [Diff.isEmpty, Bool.and_eq_true, List.isEmpty_iff, List.eq_nil_iff_forall_not_mem,
    mem_missingInKernel, mem_staleInKernel, mem_expired]
  constructor
  · rintro ⟨⟨hmissing, hstale⟩, hexpired⟩
    refine ⟨fun n => ⟨fun h => ?_, fun h => ?_⟩, fun e he => ?_⟩
    · by_contra hl
      exact hmissing n ⟨h, hl⟩
    · by_contra ha
      exact hstale n ⟨h, ha⟩
    · by_contra hexp
      exact hexpired e.target ⟨e, he, by simpa using hexp, rfl⟩
  · rintro ⟨hsame, hnone⟩
    refine ⟨⟨fun n hn => hn.2 ((hsame n).mp hn.1), fun n hn => hn.2 ((hsame n).mpr hn.1)⟩, ?_⟩
    rintro n ⟨e, he, hexp, -⟩
    simp [hnone e he] at hexp

end DiffSpec

/-! ## The tick -/

section Tick

variable {κ : Type} (H : Host κ)

/-- A section under the store lock. -/
def onStore {ε α : Type} (f : State → α × State) : Act (World κ) ε α :=
  .update fun w => ((f w.store).1, { w with store := (f w.store).2 })

/-- Rebuild the table from the store, under its lock. A failure changes nothing. -/
def rebuild (cfg : AgentConfig) : Act (World κ) String Unit := do
  let w ← .get
  let r ← .attempt (applyRuleset H (cfg.rulesetWith w.store.rulesetFlags) w.store.entries)
  match r with
  | .ok applied => .modify fun w => { w with live := Live.record applied }
  | .error _ => pure ()

/-- Forget what has expired, and take a copy of the entries that are left. -/
def pruneAndSnapshot (now : DateTime) : Act (World κ) String (List Entry) := do
  let removed ← onStore fun s => s.pruneExpired now
  .onlyIf (!removed.isEmpty) (.ignore (callSave H))
  let w ← .get
  return w.store.entries

/-- Add a missing target, through its entry. -/
def addMissing (entries : List Entry) (target : IpNet) : Act (World κ) String Unit :=
  match entries.find? fun e => e.target = target with
  | some entry => .ignore (callAdd H entry)
  | none => pure ()

def removeStale (target : IpNet) : Act (World κ) String Unit := .ignore (callRemove H target)

/-- One round of the reconcile loop. Failures of single calls are ignored. -/
def reconcileTick (cfg : AgentConfig) (O : HashOrder) (now : DateTime) : Act (World κ) String Unit := do
  let entries ← pruneAndSnapshot H now
  let r ← .attempt (callList H)
  match r with
  | .ok kernel => do
    let d := diff O entries kernel now
    forEach (addMissing H entries) d.missingInKernel
    forEach (removeStale H) d.staleInKernel
  | .error _ => rebuild H cfg

end Tick

/-! ## Convergence -/

/-- A kernel that keeps a set of networks: what is added and removed is masked, and
every call succeeds. -/
structure NetKernel (κ : Type) extends Host κ where
  nets : κ → IpNet → Prop
  canonical : ∀ {k n}, nets k n → n.Canonical
  add_ok : ∀ e k, (add e k).1 = .ok ()
  nets_add : ∀ e k n, nets (add e k).2 n ↔ nets k n ∨ n = e.target.network
  remove_ok : ∀ t k, (remove t k).1 = .ok ()
  nets_remove : ∀ t k n, nets (remove t k).2 n ↔ nets k n ∧ n ≠ t.network
  list_ok : ∀ k, ∃ elems, (list k).1 = .ok elems ∧ ∀ n, Listed elems n ↔ nets k n
  nets_list : ∀ k n, nets (list k).2 n ↔ nets k n
  nets_save : ∀ s k n, nets (save s k).2 n ↔ nets k n

section Convergence

variable {κ : Type} {K : NetKernel κ} {cfg : AgentConfig} {O : HashOrder} {now : DateTime}
variable {w : World κ} {entries : List Entry} {t : IpNet}

/-- The kernel has the networks of the unexpired entries. -/
def InLine (K : NetKernel κ) (entries : List Entry) (now : DateTime) (k : κ) : Prop :=
  ∀ n, K.nets k n ↔ ∃ e ∈ entries, e.isExpired now = false ∧ e.target.network = n

/-- A further tick at the same time would find nothing to do. -/
def Settled (K : NetKernel κ) (O : HashOrder) (now : DateTime) (w : World κ) : Prop :=
  ∀ elems, (K.list w.host).1 = .ok elems → (diff O w.store.entries elems now).isEmpty = true

theorem wp_pruneAndSnapshot : wp (pruneAndSnapshot K.toHost now)
    (fun r w' => r = .ok (w.store.pruneExpired now).2.entries ∧
      w'.store = (w.store.pruneExpired now).2 ∧ ∀ n, K.nets w'.host n ↔ K.nets w.host n) w := by
  simp only [pruneAndSnapshot, wp_bind, onStore, wp_update, andThen_ok, wp_onlyIf, wp_ignore]
  constructor
  · intro _
    exact ⟨rfl, rfl, fun n => K.nets_save ..⟩
  · intro _
    exact ⟨rfl, rfl, fun n => Iff.rfl⟩

/-- Adding a missing target adds its network. -/
theorem wp_addMissing (ht : ∃ e ∈ entries, e.target = t) : wp (addMissing K.toHost entries t)
    (fun r w' => r = .ok () ∧ w'.store = w.store ∧
      ∀ n, K.nets w'.host n ↔ K.nets w.host n ∨ n = t.network) w := by
  unfold addMissing
  split
  · next e hfind =>
    have htarget : e.target = t := by simpa using List.find?_some hfind
    refine ⟨rfl, rfl, fun n => ?_⟩
    rw [← htarget]
    exact K.nets_add e w.host n
  · next hfind =>
    obtain ⟨e, he, rfl⟩ := ht
    simpa using List.find?_eq_none.mp hfind e he

theorem wp_removeStale : wp (removeStale K.toHost t)
    (fun r w' => r = .ok () ∧ w'.store = w.store ∧
      ∀ n, K.nets w'.host n ↔ K.nets w.host n ∧ n ≠ t.network) w :=
  ⟨rfl, rfl, K.nets_remove t w.host⟩

/-- Adding every missing target adds their networks. -/
theorem wp_addAll {missing : List IpNet} (hmissing : ∀ t ∈ missing, ∃ e ∈ entries, e.target = t) :
    wp (forEach (addMissing K.toHost entries) missing)
      (fun r w' => r = .ok () ∧ w'.store = w.store ∧
        ∀ n, K.nets w'.host n ↔ K.nets w.host n ∨ ∃ t ∈ missing, n = t.network) w := by
  refine wp_forEach (fun (done : List IpNet) (w' : World κ) => w'.store = w.store ∧
    ∀ n, K.nets w'.host n ↔ K.nets w.host n ∨ ∃ t ∈ done, n = t.network) ?_ ?_
  · intro t ht done w₁ hw₁
    apply wp_mono (wp_addMissing (hmissing t ht))
    rintro r w₂ ⟨hr, hstore, hnets⟩
    refine ⟨hr, hstore.trans hw₁.1, fun n => ?_⟩
    rw [hnets, hw₁.2]
    simp [or_assoc, or_and_right, exists_or]
  · exact ⟨rfl, fun n => by simp⟩

/-- Removing every stale target removes their networks. -/
theorem wp_removeAll {stale : List IpNet} : wp (forEach (removeStale K.toHost) stale)
    (fun r w' => r = .ok () ∧ w'.store = w.store ∧
      ∀ n, K.nets w'.host n ↔ K.nets w.host n ∧ ∀ t ∈ stale, n ≠ t.network) w := by
  refine wp_forEach (fun (done : List IpNet) (w' : World κ) => w'.store = w.store ∧
    ∀ n, K.nets w'.host n ↔ K.nets w.host n ∧ ∀ t ∈ done, n ≠ t.network) ?_ ?_
  · intro t _ done w₁ hw₁
    apply wp_mono wp_removeStale
    rintro r w₂ ⟨hr, hstore, hnets⟩
    refine ⟨hr, hstore.trans hw₁.1, fun n => ?_⟩
    rw [hnets, hw₁.2]
    simp [and_assoc, or_imp, forall_and]
  · exact ⟨rfl, fun n => by simp⟩

theorem wp_callList : wp (callList K.toHost) (fun r w' => ∃ elems, r = .ok elems ∧
    (∀ n, Listed elems n ↔ K.nets w.host n) ∧ w'.store = w.store ∧
    ∀ n, K.nets w'.host n ↔ K.nets w.host n) w := by
  obtain ⟨elems, hlist, hlisted⟩ := K.list_ok w.host
  exact ⟨elems, hlist, hlisted, rfl, K.nets_list w.host⟩

theorem active_pruned (n : IpNet) : ActiveTarget (w.store.pruneExpired now).2.entries now n ↔
    ActiveTarget w.store.entries now n := by
  simp only [ActiveTarget, State.mem_pruneExpired]
  tauto

/-- What a tick leaves in the kernel: what was there, with the networks of the
active targets it does not list, without the listed networks that are no active
target. -/
theorem wp_reconcileTick : wp (reconcileTick K.toHost cfg O now)
    (fun _ w' => w'.store = (w.store.pruneExpired now).2 ∧ ∀ n, K.nets w'.host n ↔
      (K.nets w.host n ∨ ∃ t, ActiveTarget w.store.entries now t ∧ ¬K.nets w.host t ∧ n = t.network) ∧
        ∀ t, K.nets w.host t → ¬ActiveTarget w.store.entries now t → n ≠ t.network) w := by
  unfold reconcileTick
  rw [wp_bind]
  apply wp_mono wp_pruneAndSnapshot
  rintro _ w₁ ⟨rfl, hstore₁, hnets₁⟩
  rw [andThen_ok, wp_bind, wp_attempt]
  apply wp_mono wp_callList
  rintro _ w₂ ⟨elems, rfl, hlisted, hstore₂, hnets₂⟩
  have hmissing : ∀ t ∈ (diff O (w.store.pruneExpired now).2.entries elems now).missingInKernel,
      ∃ e ∈ (w.store.pruneExpired now).2.entries, e.target = t := by
    intro t ht
    obtain ⟨e, he, -, rfl⟩ := (mem_missingInKernel.mp ht).1
    exact ⟨e, he, rfl⟩
  rw [andThen_ok, wp_bind]
  apply wp_mono (wp_addAll hmissing)
  rintro _ w₃ ⟨rfl, hstore₃, hnets₃⟩
  rw [andThen_ok]
  apply wp_mono wp_removeAll
  rintro _ w₄ ⟨-, hstore₄, hnets₄⟩
  refine ⟨by rw [hstore₄, hstore₃, hstore₂, hstore₁], fun n => ?_⟩
  simp only [hnets₄, hnets₃, hnets₂, hnets₁, mem_missingInKernel, mem_staleInKernel, active_pruned, hlisted,
    and_imp, and_assoc]

/-- The targets that count are written as networks. -/
def AllCanonical (entries : List Entry) (now : DateTime) : Prop :=
  ∀ e ∈ entries, e.isExpired now = false → e.target.Canonical

theorem activeTarget_network (h : AllCanonical entries now) (n : IpNet) :
    (∃ e ∈ entries, e.isExpired now = false ∧ e.target.network = n) ↔ ActiveTarget entries now n := by
  constructor
  · rintro ⟨e, he, hexp, rfl⟩
    exact ⟨e, he, hexp, (h e he hexp).symm⟩
  · rintro ⟨e, he, hexp, rfl⟩
    exact ⟨e, he, hexp, h e he hexp⟩

/-- With targets written as networks the tick leaves the active targets, and
nothing else. -/
theorem wp_tick_canonical (h : AllCanonical w.store.entries now) : wp (reconcileTick K.toHost cfg O now)
    (fun _ w' => w'.store = (w.store.pruneExpired now).2 ∧
      ∀ n, K.nets w'.host n ↔ ActiveTarget w.store.entries now n) w := by
  apply wp_mono wp_reconcileTick
  rintro _ w' ⟨hstore, hnets⟩
  refine ⟨hstore, fun n => ?_⟩
  have hself (t : IpNet) (ht : ActiveTarget w.store.entries now t) : t.network = t := by
    obtain ⟨e, he, hexp, rfl⟩ := ht
    exact h e he hexp
  rw [hnets]
  constructor
  · rintro ⟨hn | ⟨t, ht, -, rfl⟩, hkeep⟩
    · by_contra hactive
      exact hkeep n hn hactive (K.canonical hn).symm
    · rwa [hself t ht]
  · intro hn
    refine ⟨?_, fun t ht hactive heq => hactive ?_⟩
    · by_cases hk : K.nets w.host n
      · exact .inl hk
      · exact .inr ⟨n, hn, hk, (hself n hn).symm⟩
    · rwa [heq, K.canonical ht] at hn

/-- A kernel that lists a spelling with host bits does not exist. -/
theorem allCanonical_of_settled (h : Settled K O now w) : AllCanonical w.store.entries now := by
  intro e he hexp
  obtain ⟨elems, hlist, hlisted⟩ := K.list_ok w.host
  obtain ⟨hsame, -⟩ := diff_isEmpty_iff.mp (h elems hlist)
  exact K.canonical ((hlisted _).mp ((hsame _).mp ⟨e, he, hexp, rfl⟩))

theorem settled_of_active (hstore : ∀ e ∈ w.store.entries, e.isExpired now = false)
    (hnets : ∀ n, K.nets w.host n ↔ ActiveTarget w.store.entries now n) : Settled K O now w := by
  intro elems hlist
  obtain ⟨elems', hlist', hlisted⟩ := K.list_ok w.host
  obtain rfl := Except.ok.inj (hlist'.symm.trans hlist)
  exact diff_isEmpty_iff.mpr ⟨fun n => ((hlisted n).trans (hnets n)).symm, hstore⟩

/-- A tick on its own brings the kernel in line for good exactly when every
unexpired target is written without host bits. -/
theorem tick_converges_iff (K : NetKernel κ) (cfg : AgentConfig) (O O' : HashOrder) (now : DateTime)
    (w : World κ) :
    wp (reconcileTick K.toHost cfg O now)
      (fun _ w' => InLine K w.store.entries now w'.host ∧ Settled K O' now w') w ↔
      ∀ e ∈ w.store.entries, e.isExpired now = false → e.target.Canonical := by
  constructor
  · rintro ⟨-, hsettled⟩ e he hexp
    have hstore : (reconcileTick K.toHost cfg O now w).2.store = (w.store.pruneExpired now).2 :=
      wp_reconcileTick.1
    apply allCanonical_of_settled hsettled e
    · rw [hstore, State.mem_pruneExpired]
      exact ⟨he, hexp⟩
    · exact hexp
  · intro hcanon
    apply wp_mono (wp_tick_canonical hcanon)
    rintro _ w' ⟨hstore, hnets⟩
    refine ⟨fun n => (hnets n).trans (activeTarget_network hcanon n).symm, settled_of_active ?_ ?_⟩
    · intro e he
      rw [hstore, State.mem_pruneExpired] at he
      exact he.2
    · intro n
      rw [hnets, hstore, active_pruned]

end Convergence

/-! ### A target with host bits -/

/-- Masked networks in a list. -/
structure NetList where
  nets : List IpNet
  canonical : ∀ n ∈ nets, n.Canonical

def NetList.add (l : NetList) (n : IpNet) : NetList where
  nets := n.network :: l.nets
  canonical := List.forall_mem_cons.mpr ⟨n.network_canonical, l.canonical⟩

def NetList.remove (l : NetList) (n : IpNet) : NetList where
  nets := l.nets.filter fun m => m ≠ n.network
  canonical m hm := l.canonical m (List.mem_of_mem_filter hm)

/-- The networks of the entries, as a rebuild loads them. -/
def NetList.load : List Entry → NetList
  | [] => ⟨[], by simp⟩
  | e :: es => (NetList.load es).add e.target

def listKernel : NetKernel NetList where
  apply _ entries _ := (.ok (), .load entries)
  add e k := (.ok (), k.add e.target)
  remove t k := (.ok (), k.remove t)
  list k := (.ok (k.nets.map fun n => ⟨n, none⟩), k)
  save _ k := (.ok (), k)
  nets k n := n ∈ k.nets
  canonical hn := NetList.canonical _ _ hn
  add_ok _ _ := rfl
  nets_add e k n := by simp [NetList.add, or_comm]
  remove_ok _ _ := rfl
  nets_remove t k n := by simp [NetList.remove]
  list_ok k := ⟨_, rfl, fun n => by simp [Listed]⟩
  nets_list _ _ := Iff.rfl
  nets_save _ _ _ := Iff.rfl

def officeNet : IpNet := .v4 ⟨ipv4 10 0 0 0, 24, by decide⟩

/-- One entry for `10.0.0.1/24`, and the kernel in line with it. -/
def hostBitsWorld : World NetList where
  store := { State.default with
    entries := [⟨⟨0⟩, .v4 ⟨ipv4 10 0 0 1, 24, by decide⟩, "", none, 0, ⟨0⟩⟩] }
  live := ⟨false, false⟩
  host := (NetList.load []).add officeNet
  accepted := AgentConfig.default.rulesetWith State.default.rulesetFlags

/-- The tick adds the missing spelling, which changes nothing, and then removes the
network as stale: the kernel is left without it. -/
theorem tick_drops_host_bits :
    (reconcileTick listKernel.toHost .default .asIs 0 hostBitsWorld).2.host.nets = [] ∧
      ¬(wp (reconcileTick listKernel.toHost .default .asIs 0)
        (fun _ w' => InLine listKernel hostBitsWorld.store.entries 0 w'.host ∧
          Settled listKernel .asIs 0 w') hostBitsWorld) := by
  have hempty : (reconcileTick listKernel.toHost .default .asIs 0 hostBitsWorld).2.host.nets = [] := by
    decide +kernel
  refine ⟨hempty, fun h => ?_⟩
  have hin := (h.1 _).mpr ⟨_, List.mem_cons_self .., rfl, rfl⟩
  rw [show listKernel.nets = fun k n => n ∈ k.nets from rfl] at hin
  simp only [hempty] at hin
  cases hin

end Ipgate
