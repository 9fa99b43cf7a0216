-- SUMMARY: A table of nftables in the kernel over time: elements with deadlines, what loads, commands and packets put into the sets.
import Ipgate.Lib.NftSets

/-!
# Sets over time

An element with a timeout leaves its set by itself. The elements of a table that has been loaded
are items with deadlines; a load replaces them all, a command changes one, and a packet puts in
what the rule that decides about it says. Which items are there is told by the last change of each.
-/

namespace Nft

open Net

/-! ## Items -/

/-- The nanoseconds of so many seconds. -/
def nanos (secs : Nat) : Int := secs * 1000000000

/-- A network in a set, and when it leaves the set by itself. -/
structure Item (ν : Type) where
  set : ν
  net : IpNet
  deadline : Option Int
  deriving DecidableEq

/-- The item is in its set at the time. -/
def Item.alive {ν : Type} (i : Item ν) (now : Int) : Bool :=
  match i.deadline with
  | some t => now < t
  | none => true

/-- A change of the sets. -/
inductive Change (ν : Type) where
  | put (i : Item ν)
  | remove (set : ν) (net : IpNet)
  /-- The table is built anew. -/
  | clear

section Changes

variable {ν : Type} [DecidableEq ν] {c : Change ν} {cs cs' : List (Change ν)} {i j : Item ν} {now : Int}

/-- The change takes the item out, or puts another in its place. -/
def Change.Ends (i : Item ν) : Change ν → Prop
  | .put j => j.set = i.set ∧ j.net = i.net
  | .remove set net => set = i.set ∧ net = i.net
  | .clear => True

instance (i : Item ν) : (c : Change ν) → Decidable (c.Ends i)
  | .put _ => inferInstanceAs (Decidable (_ ∧ _))
  | .remove _ _ => inferInstanceAs (Decidable (_ ∧ _))
  | .clear => inferInstanceAs (Decidable True)

/-- The items after a change. -/
def Change.apply (items : List (Item ν)) (c : Change ν) : List (Item ν) :=
  let kept := items.filter fun j => ¬c.Ends j
  match c with
  | .put i => kept ++ [i]
  | _ => kept

/-- The items after changes. -/
def Change.applyAll (items : List (Item ν)) (cs : List (Change ν)) : List (Item ν) := cs.foldl Change.apply items

theorem Change.mem_apply {items : List (Item ν)} : i ∈ c.apply items ↔ c = .put i ∨ (i ∈ items ∧ ¬c.Ends i) := by
  cases c with
  | put j =>
    unfold Change.apply
    rw [List.mem_append, List.mem_filter, List.mem_singleton, or_comm, decide_eq_true_eq, eq_comm (a := i)]
    simp only [Change.put.injEq]
  | remove => simp [Change.apply]
  | clear => simp [Change.apply]

@[simp] theorem Change.applyAll_nil {items : List (Item ν)} : Change.applyAll items ([] : List (Change ν)) = items := rfl

theorem Change.applyAll_cons {items : List (Item ν)} :
    Change.applyAll items (c :: cs) = Change.applyAll (c.apply items) cs := rfl

theorem Change.applyAll_append {items : List (Item ν)} :
    Change.applyAll items (cs ++ cs') = Change.applyAll (Change.applyAll items cs) cs' := List.foldl_append

theorem Change.mem_put {items : List (Item ν)} : j ∈ Change.applyAll items [.put i] ↔
    j = i ∨ (j ∈ items ∧ ¬(i.set = j.set ∧ i.net = j.net)) := by
  rw [Change.applyAll_cons, Change.applyAll_nil, Change.mem_apply, Change.put.injEq, eq_comm]
  rfl

end Changes

/-! ## What loads, commands and packets change -/

section Effects

variable {ν : Type}

/-- An element is put into a set, to stay for its timeout. -/
def Elem.changes (set : ν) (now : Int) : Elem → List (Change ν)
  | .net n timeout => [.put ⟨set, n, timeout.map fun secs => now + nanos secs⟩]
  | .ports _ _ => []

def ElementCmd.changes (now : Int) : ElementCmd ν → List (Change ν)
  | .add _ set element => element.changes set now
  | .delete _ set target => [.remove set target]

/-- The elements of a table, behind the removal of all there were before. -/
def Table.changes (now : Int) (t : Table ν) : List (Change ν) :=
  .clear :: t.sets.flatMap fun s => s.elements.flatMap (Elem.changes s.name now)

/-- A source address that is put into a set stays for the timeout of the statement. -/
def Stmt.changes (p : Packet) (now : Int) : Stmt ν → List (Change ν)
  | .counter => []
  | .updateSaddr f set secs => if p.family = f then [.put ⟨set, .host p.saddr, some (now + nanos secs)⟩] else []

variable [DecidableEq ν]

/-- The statements of the rule that decides about a packet. -/
def executed (S : Sets ν) (p : Packet) : List (Line ν) → List (Stmt ν)
  | [] => []
  | .comment _ :: rest => executed S p rest
  | .rule r :: rest => if (r.eval S p).isSome then r.stmts else executed S p rest

end Effects

/-! ## A table in the kernel -/

/-- The table that was loaded last, and the networks that are in its sets. -/
structure Running (ν : Type) where
  table : Table ν
  items : List (Item ν)

namespace Running

variable {ν : Type} [DecidableEq ν]

def load (t : Table ν) (now : Int) : Running ν := ⟨t, Change.applyAll [] (t.changes now)⟩

def exec (k : Running ν) (c : ElementCmd ν) (now : Int) : Running ν :=
  { k with items := Change.applyAll k.items (c.changes now) }

/-- What the sets have in them at a time. -/
def sets (k : Running ν) (now : Int) : Sets ν where
  addr n a := k.items.any fun i => i.set = n && i.alive now && i.net.Contains a
  port n p := k.table.sets.any fun s => s.name = n && s.elements.any (·.hasPort p)

/-- A packet comes to a chain. -/
def packet (k : Running ν) (c : Chain ν) (p : Packet) (now : Int) : Verdict × Running ν :=
  ((c.eval (k.sets now) p).1,
    { k with items := Change.applyAll k.items ((executed (k.sets now) p c.lines).flatMap (Stmt.changes p now)) })

end Running

/-! ## Loads and commands against the maps of timeouts -/

section Tracks

variable {ν : Type} [DecidableEq ν] {items : List (Item ν)} {M : Members ν} {now : Int} {set : ν} {n : IpNet}
variable {d : Option Int}

/-- The items are the members of the sets, each until its timeout counted from now on. -/
def Tracks (items : List (Item ν)) (now : Int) (M : Members ν) : Prop :=
  ∀ set n d, ⟨set, n, d⟩ ∈ items ↔ ∃ timeout, M set n = some timeout ∧ d = timeout.map fun secs => now + nanos secs

omit [DecidableEq ν] in
theorem tracks_nil : Tracks ([] : List (Item ν)) now fun _ _ => none := by
  intro set n d
  refine iff_of_false List.not_mem_nil ?_
  rintro ⟨_, hnone, -⟩
  cases hnone

theorem Tracks.put (h : Tracks items now M) (e : Elem) :
    Tracks (Change.applyAll items (e.changes set now)) now (M.put set e) := by
  cases e with
  | ports => exact h
  | net m timeout =>
    intro set' n d
    have hput : M.put set (.net m timeout) set' n = if set' = set ∧ n = m then some timeout else M set' n := rfl
    unfold Elem.changes
    rw [Change.applyAll_cons, Change.applyAll_nil, Change.mem_apply, hput, h set' n d]
    simp only [Change.put.injEq, Item.mk.injEq, Change.Ends]
    split
    · next hkey =>
      obtain ⟨rfl, rfl⟩ := hkey
      simp [eq_comm]
    · next hkey =>
      constructor
      · rintro (⟨rfl, rfl, -⟩ | hold)
        · exact (hkey ⟨rfl, rfl⟩).elim
        · exact hold.1
      · exact fun hold => .inr ⟨hold, fun hsame => hkey ⟨hsame.1.symm, hsame.2.symm⟩⟩

theorem Tracks.putAll (h : Tracks items now M) (es : List Elem) :
    Tracks (Change.applyAll items (es.flatMap (Elem.changes set now))) now (M.putAll set es) := by
  induction es generalizing items M with
  | nil => exact h
  | cons e es ih =>
    rw [List.flatMap_cons, Change.applyAll_append, Members.putAll_cons]
    exact ih (h.put e)

theorem Tracks.remove (h : Tracks items now M) (target : IpNet) :
    Tracks (Change.applyAll items [.remove set target]) now (M.remove set target) := by
  intro set' n d
  have hremove : M.remove set target set' n = if set' = set ∧ n = target then none else M set' n := rfl
  rw [Change.applyAll_cons, Change.applyAll_nil, Change.mem_apply, hremove, h set' n d]
  simp only [reduceCtorEq, false_or, Change.Ends]
  split
  · next hkey =>
    obtain ⟨rfl, rfl⟩ := hkey
    simp
  · next hkey => exact and_iff_left fun hsame => hkey ⟨hsame.1.symm, hsame.2.symm⟩

/-- A command does to the items what it does to the map. -/
theorem Tracks.exec {k : Running ν} (h : Tracks k.items now M) (c : ElementCmd ν) :
    Tracks (k.exec c now).items now (c.exec M) := by
  cases c with
  | add table set element => exact h.put element
  | delete table set target => exact h.remove target

/-- A load leaves what the script of the table does. -/
theorem tracks_load (t : Table ν) (now : Int) : Tracks (Running.load t now).items now t.members := by
  have hsets (sets : List (SetDef ν)) {items : List (Item ν)} {M : Members ν} (h : Tracks items now M) :
      Tracks (Change.applyAll items (sets.flatMap fun s => s.elements.flatMap (Elem.changes s.name now))) now
        (sets.foldl (fun M s => M.putAll s.name s.elements) M) := by
    induction sets generalizing items M with
    | nil => exact h
    | cons s sets ih =>
      rw [List.flatMap_cons, Change.applyAll_append]
      exact ih (h.putAll s.elements)
  exact hsets t.sets tracks_nil

end Tracks

/-! ## Packets -/

section Packets

variable {ν : Type} [DecidableEq ν] {S : Sets ν} {p : Packet} {rest : List (Line ν)} {now : Int} {k : Running ν}

@[simp] theorem executed_nil : executed S p ([] : List (Line ν)) = [] := rfl

@[simp] theorem executed_comment (text : String) : executed S p (.comment text :: rest) = executed S p rest := rfl

theorem executed_rule (r : Rule ν) :
    executed S p (.rule r :: rest) = if (r.eval S p).isSome then r.stmts else executed S p rest := rfl

/-- The sets that a chain leaves are those that its deciding rule makes of them. -/
theorem evalLines_executed {lines : List (Line ν)} {v : Verdict} {S' : Sets ν}
    (h : evalLines S p lines = some (v, S')) : (executed S p lines).foldlM (Stmt.exec p) S = some S' := by
  induction lines with
  | nil => cases h
  | cons l lines ih =>
    cases l with
    | comment text => exact ih h
    | rule r =>
      rw [evalLines_rule] at h
      rw [executed_rule]
      cases hr : r.eval S p with
      | none =>
        rw [hr, Option.none_or] at h
        exact ih h
      | some out =>
        rw [hr, Option.some_or] at h
        obtain rfl := Option.some.inj h
        unfold Rule.eval at hr
        split at hr
        · obtain ⟨S'', hS, heq⟩ := Option.map_eq_some_iff.mp hr
          rw [← (Prod.mk.inj heq).2]
          exact hS
        · cases hr

theorem executed_of_none {lines : List (Line ν)} (h : evalLines S p lines = none) : executed S p lines = [] := by
  induction lines with
  | nil => rfl
  | cons l lines ih =>
    cases l with
    | comment text => exact ih h
    | rule r =>
      rw [evalLines_rule, Option.or_eq_none_iff] at h
      rw [executed_rule, h.1]
      exact ih h.2

theorem executed_append_of_none {lines : List (Line ν)} (h : evalLines S p lines = none) :
    executed S p (lines ++ rest) = executed S p rest := by
  induction lines with
  | nil => rfl
  | cons l lines ih =>
    cases l with
    | comment text => exact ih h
    | rule r =>
      rw [evalLines_rule, Option.or_eq_none_iff] at h
      rw [List.cons_append, executed_rule, h.1]
      exact ih h.2

theorem executed_append_of_some {lines : List (Line ν)} (h : (evalLines S p lines).isSome) :
    executed S p (lines ++ rest) = executed S p lines := by
  induction lines with
  | nil => cases h
  | cons l lines ih =>
    cases l with
    | comment text => exact ih h
    | rule r =>
      rw [evalLines_rule] at h
      rw [List.cons_append, executed_rule, executed_rule]
      cases hr : r.eval S p with
      | none =>
        rw [hr, Option.none_or] at h
        exact ih h
      | some out => rfl

/-- Rules without statements execute nothing. -/
theorem executed_plain {lines : List (Line ν)} (h : ∀ r, .rule r ∈ lines → r.stmts = []) : executed S p lines = [] := by
  induction lines with
  | nil => rfl
  | cons l lines ih =>
    have hrest := ih fun r hr => h r (List.mem_cons_of_mem l hr)
    cases l with
    | comment text => exact hrest
    | rule r =>
      rw [executed_rule, hrest, h r (List.mem_cons_self ..)]
      exact ite_self []

theorem mem_sets {n : ν} {a : IpAddr} : (k.sets now).addr n a = true ↔
    ∃ i ∈ k.items, i.set = n ∧ i.alive now = true ∧ i.net.Contains a := by
  unfold Running.sets
  simp only [List.any_eq_true, Bool.and_eq_true, decide_eq_true_eq, and_assoc]

/-- At the time of a packet, a statement changes the items as it changes the sets. -/
theorem sets_stmt {st : Stmt ν} {S' : Sets ν} (hpos : ∀ f set secs, st = .updateSaddr f set secs → 0 < secs)
    (h : st.exec p (k.sets now) = some S') :
    (Running.mk k.table (Change.applyAll k.items (st.changes p now))).sets now = S' := by
  cases st with
  | counter => exact Option.some.inj h
  | updateSaddr f set secs =>
    unfold Stmt.exec at h
    unfold Stmt.changes
    dsimp only at h ⊢
    split at h
    · next hf =>
      obtain rfl := Option.some.inj h
      rw [if_pos hf]
      -- a timeout above zero has the item alive at once
      have halive : Item.alive ⟨set, .host p.saddr, some (now + nanos secs)⟩ now = true := by
        have hsecs := hpos f set secs rfl
        have hlater : now < now + nanos secs := by
          unfold nanos
          omega
        exact decide_eq_true hlater
      have haddr (n : ν) (a : IpAddr) : ((Running.mk k.table (Change.applyAll k.items
          [.put ⟨set, .host p.saddr, some (now + nanos secs)⟩])).sets now).addr n a = true ↔
          (k.sets now).addr n a = true ∨ (n = set ∧ a = p.saddr) := by
        rw [mem_sets, mem_sets]
        constructor
        · rintro ⟨i, hi, hset, hlive, hin⟩
          cases Change.mem_put.mp hi with
          | inl hput =>
            subst hput
            exact .inr ⟨hset.symm, IpNet.host_contains.mp hin⟩
          | inr hold => exact .inl ⟨i, hold.1, hset, hlive, hin⟩
        · rintro (⟨i, hi, hset, hlive, hin⟩ | ⟨rfl, rfl⟩)
          · by_cases hends : set = i.set ∧ IpNet.host p.saddr = i.net
            · -- The item has been put in again, and has a later deadline now.
              refine ⟨_, Change.mem_put.mpr (.inl rfl), hends.1.trans hset, halive, ?_⟩
              rw [hends.2]
              exact hin
            · exact ⟨i, Change.mem_put.mpr (.inr ⟨hi, hends⟩), hset, hlive, hin⟩
          · exact ⟨_, Change.mem_put.mpr (.inl rfl), rfl, halive, IpNet.host_contains.mpr rfl⟩
      refine congrArg₂ Sets.mk (funext fun n => funext fun a => Bool.eq_iff_iff.mpr ((haddr n a).trans ?_)) rfl
      simp
    · cases h

/-- The sets after a packet are those that its chain leaves. -/
theorem sets_packet {c : Chain ν} (hpos : ∀ f set secs, .updateSaddr f set secs ∈ executed (k.sets now) p c.lines →
    0 < secs) : (k.packet c p now).2.sets now = (c.eval (k.sets now) p).2 := by
  have hrun (stmts : List (Stmt ν)) (hpos : ∀ f set secs, .updateSaddr f set secs ∈ stmts → 0 < secs)
      (k : Running ν) {S' : Sets ν} (h : stmts.foldlM (Stmt.exec p) (k.sets now) = some S') :
      (Running.mk k.table (Change.applyAll k.items (stmts.flatMap (Stmt.changes p now)))).sets now = S' := by
    induction stmts generalizing k with
    | nil => exact Option.some.inj h
    | cons st stmts ih =>
      rw [List.foldlM_cons] at h
      obtain ⟨S₁, hst, hrest⟩ := Option.bind_eq_some_iff.mp h
      have hfirst := sets_stmt (fun f set secs heq => hpos f set secs (heq ▸ List.mem_cons_self ..)) hst
      rw [List.flatMap_cons, Change.applyAll_append]
      refine ih (fun f set secs hmem => hpos f set secs (List.mem_cons_of_mem _ hmem))
        ⟨k.table, Change.applyAll k.items (st.changes p now)⟩ ?_
      rw [hfirst]
      exact hrest
  unfold Running.packet Chain.eval
  cases heval : evalLines (k.sets now) p c.lines with
  | none =>
    have hnone : executed (k.sets now) p c.lines = [] := executed_of_none heval
    rw [hnone]
    rfl
  | some out => exact hrun _ hpos k (evalLines_executed heval)

end Packets

end Nft
