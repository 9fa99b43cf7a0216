-- SUMMARY: The rendered table in the kernel over time: loads, commands for one entry and packets, and which packets get to the host when.
import Ipgate.Lib.Lts
import Ipgate.Lib.TimedSets
import Ipgate.Agent.Nft.Increment

/-!
# The ruleset over time

The agent loads tables and sends commands for single entries; between them packets arrive, and
elements run out. A knock opens SSH for its source alone and for a time, and an entry admits its
target until it expires, whether or not the agent is still there to take it out.
-/

namespace Ipgate.Clock

open Net Nft

/-! ## The kernel -/

/-- The kernel with the ruleset that was loaded last. -/
structure Kernel where
  cfg : RulesetConfig
  running : Running SetName
  clock : DateTime

/-- What comes to the kernel, and is not refused. -/
inductive Event where
  /-- The whole table is replaced. -/
  | load (cfg : RulesetConfig) (entries : List Entry)
  | add (e : Entry)
  | remove (target : IpNet)
  /-- A packet comes to the input hook. -/
  | packet (p : Packet)

def Kernel.load (cfg : RulesetConfig) (entries : List Entry) (now : DateTime) : Kernel :=
  ⟨cfg, .load (rulesetTable cfg entries now) now, now⟩

def effect (k : Kernel) (now : DateTime) : Event → Kernel
  | .load cfg entries => .load cfg entries now
  | .add e => { k with running := k.running.exec (addElement e now) now, clock := now }
  | .remove target => { k with running := k.running.exec (deleteElement target) now, clock := now }
  | .packet p => { k with running := (k.running.packet (inputChain k.cfg) p now).2, clock := now }

/-- Time does not go back. -/
def step (k : Kernel) (e : Event × DateTime) : Option Kernel :=
  if e.2 < k.clock then none else some (effect k e.2 e.1)

/-- The verdict on a packet. -/
def Kernel.verdict (k : Kernel) (p : Packet) (now : DateTime) : Verdict :=
  (k.running.packet (inputChain k.cfg) p now).1

/-- An element of an allow set admits the address. -/
def Admitted (k : Kernel) (now : DateTime) (a : IpAddr) : Prop :=
  ∃ i ∈ k.running.items, i.set = allowSet (netFamily i.net) ∧ i.alive now = true ∧ i.net.Contains a

def Event.isLoad : Event → Bool
  | .load _ _ => true
  | _ => false

/-- The source has knocked within the time that a knock lasts, and the table has not been loaded
since. -/
def Knocked (cfg : RulesetConfig) (es : List (Event × DateTime)) (now : DateTime) (a : IpAddr) : Prop :=
  Lts.Since (fun e => ∃ p, e.1 = .packet p ∧ p.saddr = a ∧ Knocks cfg p ∧ now < e.2 + nanos KNOCK_TTL_SECS)
    (fun e => e.1.isLoad = false) es

/-- The packets that get to the host, given whether their source has knocked and whether it is
admitted. -/
def AcceptsAt (cfg : RulesetConfig) (knocked admitted : Prop) (p : Packet) : Prop :=
  OfConnection p ∨ p.ct ≠ .invalid ∧
    (p.iifLo ∨ SeenInfraIcmp p ∨ ¬KnockMatch cfg p ∧
      ((p.is .tcp ∧ p.dport = some cfg.sshPort ∧ (cfg.sshAllowlistOnly = false ∨ (cfg.knock.isSome ∧ knocked))) ∨
        PublicAdmits cfg p ∨ admitted))

/-! ## What packets execute -/

section Executed

variable {cfg : RulesetConfig} {S : Sets SetName} {p : Packet}

theorem acceptLines_plain {mss : List (List (Match SetName))} {r : Rule SetName} (h : .rule r ∈ acceptLines mss) :
    r.stmts = [] := by
  obtain ⟨ms, -, hr⟩ := List.mem_map.mp h
  obtain rfl := Line.rule.inj hr
  rfl

theorem baseLines_plain {r : Rule SetName} (h : .rule r ∈ baseLines) : r.stmts = [] := by
  unfold baseLines at h
  rw [List.mem_cons, List.mem_cons] at h
  rcases h with hr | hr | hr
  · rw [Line.rule.inj hr]
    rfl
  · rw [Line.rule.inj hr]
  · exact acceptLines_plain hr

theorem tailLines_plain {r : Rule SetName}
    (h : .rule r ∈ sshComment cfg ++ acceptLines (sshAccepts cfg ++ tailAccepts)) : r.stmts = [] := by
  cases List.mem_append.mp h with
  | inl hcomment =>
    unfold sshComment at hcomment
    split at hcomment
    · cases List.mem_singleton.mp hcomment
    · cases hcomment
  | inr haccept => exact acceptLines_plain haccept

/-- The packets that the fixed rules leave to the others. -/
def GetsPast (p : Packet) : Prop := ¬OfConnection p ∧ p.ct ≠ .invalid ∧ ¬p.iifLo ∧ ¬SeenInfraIcmp p

theorem evalLines_base_none (h : GetsPast p) : evalLines S p baseLines = none := by
  obtain ⟨hconn, hinv, hlo, hicmp⟩ := h
  have hopen : ¬meetsAny S p openAccepts := by
    rw [meetsAny_openAccepts]
    exact not_or.mpr ⟨hlo, hicmp⟩
  have hbase : evalLines S p (baseLines ++ []) = _ := evalLines_base_new hconn hinv
  rw [List.append_nil, if_neg hopen] at hbase
  exact hbase

theorem evalLines_base_some (h : ¬GetsPast p) : (evalLines S p baseLines).isSome := by
  rw [← List.append_nil baseLines]
  by_cases hconn : OfConnection p
  · rw [evalLines_base_connection hconn]
    rfl
  by_cases hinv : p.ct = .invalid
  · rw [evalLines_base_invalid hinv]
    rfl
  have hopen : meetsAny S p openAccepts = true := by
    rw [meetsAny_openAccepts]
    by_contra hnot
    obtain ⟨hlo, hicmp⟩ := not_or.mp hnot
    exact h ⟨hconn, hinv, hlo, hicmp⟩
  rw [evalLines_base_new hconn hinv, if_pos hopen]
  rfl

theorem knocks_iff : Knocks cfg p ↔ GetsPast p ∧ KnockMatch cfg p := by
  unfold Knocks GetsPast
  simp only [and_assoc]

theorem inputChain_lines : (inputChain cfg).lines =
    baseLines ++ (knockLines cfg ++ (sshComment cfg ++ acceptLines (sshAccepts cfg ++ tailAccepts))) := by
  unfold inputChain
  simp only [List.append_assoc]

/-- A knock puts its source into the set of its family. -/
theorem executed_knocks (h : Knocks cfg p) : executed S p (inputChain cfg).lines =
    [.updateSaddr p.family (knockSet p.family) KNOCK_TTL_SECS] := by
  obtain ⟨hpast, k, hk, hudp, hport, htoken⟩ := knocks_iff.mp h
  rw [inputChain_lines, executed_append_of_none (evalLines_base_none hpast)]
  unfold knockLines
  rw [hk]
  simp only [List.cons_append, executed_rule]
  cases hf : p.family with
  | ipv4 =>
    rw [knockRule_eval_match hf hudp hport htoken]
    rfl
  | ipv6 =>
    rw [knockRule_eval_rest (by simp [hf]), knockRule_eval_match hf hudp hport htoken]
    rfl

/-- No other packet changes a set. -/
theorem executed_rest (h : ¬Knocks cfg p) : executed S p (inputChain cfg).lines = [] := by
  rw [inputChain_lines]
  by_cases hpast : GetsPast p
  · have hknock : ¬KnockMatch cfg p := fun hm => h (knocks_iff.mpr ⟨hpast, hm⟩)
    have hnone : evalLines S p (knockLines cfg ++ []) = _ := evalLines_no_knock hknock
    rw [List.append_nil] at hnone
    rw [executed_append_of_none (evalLines_base_none hpast), executed_append_of_none hnone]
    exact executed_plain fun r => tailLines_plain
  · rw [executed_append_of_some (evalLines_base_some hpast)]
    exact executed_plain fun r => baseLines_plain

/-- A packet does to the verdict and the sets at its time what the input chain does. -/
theorem packet_eval {k : Kernel} (now : DateTime) :
    (k.verdict p now, (effect k now (.packet p)).running.sets now) = (inputChain k.cfg).eval (k.running.sets now) p := by
  refine Prod.ext rfl (sets_packet fun f set secs hmem => ?_)
  by_cases hknock : Knocks k.cfg p
  · rw [executed_knocks hknock] at hmem
    obtain ⟨-, -, rfl⟩ := Stmt.updateSaddr.inj (List.mem_singleton.mp hmem)
    decide
  · rw [executed_rest hknock] at hmem
    cases hmem

end Executed

/-! ## The elements in the kernel -/

/-- The items of a kernel are networks in their allow sets and single addresses in the knock sets,
the latter only while there are knock rules. -/
structure WellPlaced (k : Kernel) : Prop where
  table : ∃ entries now, k.running.table = rulesetTable k.cfg entries now
  items : ∀ i ∈ k.running.items, i.set = allowSet (netFamily i.net) ∨
    (k.cfg.knock.isSome = true ∧ ∃ a, i.set = knockSet (Family.of a) ∧ i.net = .host a)

section Items

variable {k k' : Kernel} {now t : DateTime} {e : Event × DateTime} {es : List (Event × DateTime)} {p : Packet}
variable {i : Item SetName} {cfg : RulesetConfig} {entries : List Entry} {a : IpAddr}

theorem allowSet_ne_knockSet (f g : Family) : allowSet f ≠ knockSet g := by
  cases f <;> cases g <;> decide

/-- What a load puts in: for each target the last unexpired entry, until its timeout is over. -/
theorem mem_load : i ∈ (Kernel.load cfg entries now).running.items ↔
    i.set = allowSet (netFamily i.net) ∧ ∃ e, (activeFor entries now i.net).getLast? = some e ∧
      i.deadline = (timeoutLeft now e).map fun secs => now + nanos secs := by
  have htracks := tracks_load (rulesetTable cfg entries now) now i.set i.net i.deadline
  have hitems : (Kernel.load cfg entries now).running.items = (Running.load (rulesetTable cfg entries now) now).items := rfl
  rw [hitems, htracks, members_rulesetTable]
  split
  · next hset => simp [hset]
  · next hset => simp [hset]

theorem mem_add (e : Entry) : i ∈ (effect k now (.add e)).running.items ↔
    i = ⟨allowSet (netFamily e.target), e.target, (timeoutLeft now e).map fun secs => now + nanos secs⟩ ∨
      (i ∈ k.running.items ∧ ¬(allowSet (netFamily e.target) = i.set ∧ e.target = i.net)) := Change.mem_put

theorem mem_remove (target : IpNet) : i ∈ (effect k now (.remove target)).running.items ↔
    i ∈ k.running.items ∧ ¬(allowSet (netFamily target) = i.set ∧ target = i.net) := by
  have happly : (effect k now (.remove target)).running.items =
      Change.apply k.running.items (.remove (allowSet (netFamily target)) target) := rfl
  rw [happly, Change.mem_apply]
  exact or_iff_right fun h => by cases h

theorem mem_knock (h : Knocks k.cfg p) : i ∈ (effect k now (.packet p)).running.items ↔
    i = ⟨knockSet p.family, .host p.saddr, some (now + nanos KNOCK_TTL_SECS)⟩ ∨
      (i ∈ k.running.items ∧ ¬(knockSet p.family = i.set ∧ .host p.saddr = i.net)) := by
  have hitems : (effect k now (.packet p)).running.items = Change.applyAll k.running.items
      ((executed (k.running.sets now) p (inputChain k.cfg).lines).flatMap (Stmt.changes p now)) := rfl
  have hchanges : [Stmt.updateSaddr p.family (knockSet p.family) KNOCK_TTL_SECS].flatMap (Stmt.changes p now) =
      [.put ⟨knockSet p.family, .host p.saddr, some (now + nanos KNOCK_TTL_SECS)⟩] := by
    simp [Stmt.changes]
  rw [hitems, executed_knocks h, hchanges]
  exact Change.mem_put

theorem effect_rest (h : ¬Knocks k.cfg p) : (effect k now (.packet p)).running = k.running := by
  have hrunning : (effect k now (.packet p)).running = ⟨k.running.table, Change.applyAll k.running.items
      ((executed (k.running.sets now) p (inputChain k.cfg).lines).flatMap (Stmt.changes p now))⟩ := rfl
  rw [hrunning, executed_rest h]
  rfl

theorem step_eq (h : step k e = some k') : k.clock ≤ e.2 ∧ k' = effect k e.2 e.1 := by
  unfold step at h
  split at h
  · cases h
  · next hlt => exact ⟨Int.not_lt.mp hlt, (Option.some.inj h).symm⟩

@[simp] theorem effect_clock (e : Event) : (effect k now e).clock = now := by
  cases e <;> rfl

theorem wellPlaced_load (cfg : RulesetConfig) (entries : List Entry) (now : DateTime) :
    WellPlaced (.load cfg entries now) where
  table := ⟨entries, now, rfl⟩
  items _ hi := .inl (mem_load.mp hi).1

theorem WellPlaced.effect (h : WellPlaced k) (now : DateTime) (e : Event) : WellPlaced (effect k now e) := by
  cases e with
  | load cfg entries => exact wellPlaced_load cfg entries now
  | add e =>
    refine ⟨h.table, fun i hi => ?_⟩
    rcases (mem_add e).mp hi with rfl | hold
    · exact .inl rfl
    · exact h.items i hold.1
  | remove target => exact ⟨h.table, fun i hi => h.items i ((mem_remove target).mp hi).1⟩
  | packet p =>
    by_cases hknock : Knocks k.cfg p
    · refine ⟨h.table, fun i hi => ?_⟩
      rcases (mem_knock hknock).mp hi with rfl | hold
      · obtain ⟨-, k₀, hk₀, -⟩ := knocks_iff.mp hknock
        exact .inr ⟨Option.isSome_of_eq_some hk₀, p.saddr, rfl, rfl⟩
      · exact h.items i hold.1
    · rw [show Clock.effect k now (.packet p) = ⟨k.cfg, k.running, now⟩ from
        congrArg (Kernel.mk k.cfg · now) (effect_rest hknock)]
      exact ⟨h.table, h.items⟩

theorem wellPlaced_run (hrun : Lts.run step (.load cfg entries t) es = some k) : WellPlaced k :=
  Lts.run_invariant (fun _ e _ h hstep => (step_eq hstep).2 ▸ h.effect e.2 e.1) (wellPlaced_load cfg entries t) hrun

theorem run_clock (hrun : Lts.run step (.load cfg entries t) es = some k) : t ≤ k.clock ∧ ∀ e ∈ es, e.2 ≤ k.clock := by
  refine Lts.run_history (P := fun es k => t ≤ k.clock ∧ ∀ e ∈ es, e.2 ≤ k.clock) ⟨Int.le_refl t, by simp⟩ ?_ hrun
  rintro xs k e k' - ⟨hstart, hle⟩ hstep
  obtain ⟨hclock, rfl⟩ := step_eq hstep
  rw [effect_clock]
  refine ⟨Int.le_trans hstart hclock, fun e' he' => ?_⟩
  cases List.mem_append.mp he' with
  | inl hmem => exact Int.le_trans (hle e' hmem) hclock
  | inr hmem => rw [List.mem_singleton.mp hmem]

end Items

/-! ## Knocks -/

section KnockHistory

variable {k k' : Kernel} {now t : DateTime} {es : List (Event × DateTime)} {p : Packet} {i : Item SetName}
variable {cfg : RulesetConfig} {entries : List Entry} {a : IpAddr}

/-- An element of a knock set has the address. -/
def InKnockSet (k : Kernel) (now : DateTime) (a : IpAddr) : Prop :=
  ∃ i ∈ k.running.items, i.set = knockSet (Family.of a) ∧ i.alive now = true ∧ i.net.Contains a

/-- The elements of the knock sets that have an address are those of the address itself. -/
theorem WellPlaced.knock_net (h : WellPlaced k) (hi : i ∈ k.running.items) {f : Family} (hset : i.set = knockSet f)
    (hin : i.net.Contains a) : i.net = .host a := by
  rcases h.items i hi with hallow | ⟨-, b, -, hnet⟩
  · exact (allowSet_ne_knockSet _ _ (hallow.symm.trans hset)).elim
  · rw [hnet] at hin ⊢
    rw [IpNet.host_contains.mp hin]

theorem not_inKnockSet_load : ¬InKnockSet (.load cfg entries t) now a := by
  rintro ⟨i, hi, hset, -⟩
  exact allowSet_ne_knockSet _ _ ((mem_load.mp hi).1.symm.trans hset)

theorem inKnockSet_add (e : Entry) : InKnockSet (effect k t (.add e)) now a ↔ InKnockSet k now a := by
  constructor
  · rintro ⟨i, hi, hset, hrest⟩
    rcases (mem_add e).mp hi with rfl | hold
    · exact (allowSet_ne_knockSet _ _ hset).elim
    · exact ⟨i, hold.1, hset, hrest⟩
  · rintro ⟨i, hi, hset, hrest⟩
    exact ⟨i, (mem_add e).mpr (.inr ⟨hi, fun hkey => allowSet_ne_knockSet _ _ (hkey.1.trans hset)⟩), hset, hrest⟩

theorem inKnockSet_remove (target : IpNet) : InKnockSet (effect k t (.remove target)) now a ↔ InKnockSet k now a := by
  constructor
  · rintro ⟨i, hi, hset, hrest⟩
    exact ⟨i, ((mem_remove target).mp hi).1, hset, hrest⟩
  · rintro ⟨i, hi, hset, hrest⟩
    exact ⟨i, (mem_remove target).mpr ⟨hi, fun hkey => allowSet_ne_knockSet _ _ (hkey.1.trans hset)⟩, hset, hrest⟩

/-- A knock counts for its source from then on, whatever was there before. -/
theorem inKnockSet_knock_self (h : WellPlaced k) (hknock : Knocks k.cfg p) :
    InKnockSet (effect k t (.packet p)) now p.saddr ↔ now < t + nanos KNOCK_TTL_SECS := by
  constructor
  · rintro ⟨i, hi, hset, halive, hin⟩
    rcases (mem_knock hknock).mp hi with rfl | ⟨hold, hkey⟩
    · exact of_decide_eq_true halive
    · exact (hkey ⟨hset.symm, (h.knock_net hold hset hin).symm⟩).elim
  · intro hlt
    exact ⟨_, (mem_knock hknock).mpr (.inl rfl), rfl, decide_eq_true hlt, IpNet.host_contains.mpr rfl⟩

theorem inKnockSet_knock_other (hknock : Knocks k.cfg p) (hne : p.saddr ≠ a) :
    InKnockSet (effect k t (.packet p)) now a ↔ InKnockSet k now a := by
  constructor
  · rintro ⟨i, hi, hset, halive, hin⟩
    rcases (mem_knock hknock).mp hi with rfl | hold
    · exact (hne (IpNet.host_contains.mp hin).symm).elim
    · exact ⟨i, hold.1, hset, halive, hin⟩
  · rintro ⟨i, hi, hset, halive, hin⟩
    refine ⟨i, (mem_knock hknock).mpr (.inr ⟨hi, fun hkey => hne ?_⟩), hset, halive, hin⟩
    rw [← hkey.2] at hin
    exact (IpNet.host_contains.mp hin).symm

theorem inKnockSet_rest (hknock : ¬Knocks k.cfg p) :
    InKnockSet (effect k t (.packet p)) now a ↔ InKnockSet k now a := by
  unfold InKnockSet
  rw [effect_rest hknock]

/-- The knock sets tell of the knocks since the last load. -/
theorem inKnockSet_iff (hrun : Lts.run step (.load cfg entries t) es = some k) (hnow : k.clock ≤ now) :
    InKnockSet k now a ↔ Knocked k.cfg es now a := by
  induction es using List.reverseRecOn generalizing k with
  | nil =>
    cases hrun
    exact iff_of_false not_inKnockSet_load Lts.not_since_nil
  | append_singleton es e ih =>
    obtain ⟨k₀, hrun₀, hlast⟩ := Lts.run_append_iff.mp hrun
    obtain ⟨k₁, hstep, hnil⟩ := Lts.run_cons_iff.mp hlast
    cases hnil
    obtain ⟨hclock, rfl⟩ := step_eq hstep
    rw [effect_clock] at hnow
    have hbefore := ih hrun₀ (Int.le_trans hclock hnow)
    unfold Knocked
    rw [Lts.since_concat]
    obtain ⟨ev, time⟩ := e
    cases ev with
    | load cfg' entries' =>
      -- A load empties the knock sets.
      refine iff_of_false not_inKnockSet_load ?_
      rintro (⟨p, hp, -⟩ | ⟨hload, -⟩)
      · cases hp
      · cases hload
    | add e =>
      rw [inKnockSet_add, hbefore]
      simp [Knocked, Event.isLoad, effect]
    | remove target =>
      rw [inKnockSet_remove, hbefore]
      simp [Knocked, Event.isLoad, effect]
    | packet p =>
      have hcfg : (effect k₀ time (.packet p)).cfg = k₀.cfg := rfl
      rw [hcfg]
      by_cases hknock : Knocks k₀.cfg p
      -- A knock counts for its source alone.
      · by_cases hsrc : p.saddr = a
        · subst hsrc
          rw [inKnockSet_knock_self (wellPlaced_run hrun₀) hknock]
          constructor
          · exact fun hlt => .inl ⟨p, rfl, rfl, hknock, hlt⟩
          · rintro (⟨q, hq, -, -, hlt⟩ | ⟨-, pre, e', post, rfl, ⟨q, -, -, -, hlt⟩, -⟩)
            · exact hlt
            · -- An earlier knock lasts no longer.
              have hle := (run_clock hrun₀).2 e' (List.mem_append_right _ (List.mem_cons_self ..))
              exact Int.lt_of_lt_of_le hlt (Int.add_le_add_right (Int.le_trans hle hclock) _)
        · rw [inKnockSet_knock_other hknock hsrc, hbefore]
          constructor
          · exact fun h => .inr ⟨rfl, h⟩
          · rintro (⟨q, hq, hqa, -⟩ | h)
            · cases hq
              exact (hsrc hqa).elim
            · exact h.2
      · rw [inKnockSet_rest hknock, hbefore]
        constructor
        · exact fun h => .inr ⟨rfl, h⟩
        · rintro (⟨q, hq, -, hqk, -⟩ | h)
          · cases hq
            exact (hknock hqk).elim
          · exact h.2

end KnockHistory

/-! ## The verdict -/

section Verdict

variable {k : Kernel} {now t : DateTime} {es : List (Event × DateTime)} {p : Packet}
variable {cfg : RulesetConfig} {entries : List Entry}

/-- The elements of the allow sets that have not run out, as entries that never expire. -/
def Kernel.admitted (k : Kernel) (now : DateTime) : List Entry :=
  (k.running.items.filter fun i => i.set = allowSet (netFamily i.net) && i.alive now).map fun i =>
    ⟨⟨0⟩, i.net, "", none, 0, ⟨0⟩⟩

theorem allowAdmits_admitted : AllowAdmits (k.admitted now) 0 p ↔ Admitted k now p.saddr := by
  unfold AllowAdmits Admitted Kernel.admitted
  simp [Entry.isExpired, and_assoc]

/-- The public ports do not depend on the entries. -/
theorem port_rulesetTable (entries entries' : List Entry) (now now' : DateTime) (n : SetName) (port : UInt16) :
    ((rulesetTable cfg entries now).sets.any fun s => s.name = n && s.elements.any (·.hasPort port)) =
      ((rulesetTable cfg entries' now').sets.any fun s => s.name = n && s.elements.any (·.hasPort port)) := by
  have hallow (f : Family) (entries : List Entry) (now : DateTime) :
      (allowElems f entries now).any (·.hasPort port) = false := by
    simp [allowElems, Elem.hasPort]
  unfold rulesetTable
  simp [hallow]

/-- At each moment the sets are those of a ruleset rendered from the elements that are left. -/
theorem WellPlaced.sets_eq (h : WellPlaced k) :
    k.running.sets now = rulesetSets k.cfg (k.admitted now) 0 (k.running.sets now).addr := by
  -- Every set has the elements of one kind, those that are in their place.
  have hallow (f : Family) (a : IpAddr) : (k.running.sets now).addr (allowSet f) a =
      (rulesetSets k.cfg (k.admitted now) 0 (k.running.sets now).addr).addr (allowSet f) a := by
    rw [Bool.eq_iff_iff, mem_sets, rulesetSets_allow]
    constructor
    · rintro ⟨i, hi, hset, halive, hin⟩
      have hplace : i.set = allowSet (netFamily i.net) := by
        rcases h.items i hi with hplace | ⟨-, b, hknock, -⟩
        · exact hplace
        · exact (allowSet_ne_knockSet _ _ (hset.symm.trans hknock)).elim
      have hfam : netFamily i.net = f := by
        have heq := hplace.symm.trans hset
        revert heq
        cases netFamily i.net <;> cases f <;> decide
      refine ⟨_, List.mem_map.mpr ⟨i, List.mem_filter.mpr ⟨hi, ?_⟩, rfl⟩, rfl, hfam, hin⟩
      rw [halive, decide_eq_true hplace]
      rfl
    · rintro ⟨e, he, -, hfam, hin⟩
      obtain ⟨i, hi, rfl⟩ := List.mem_map.mp he
      obtain ⟨hmem, hfilter⟩ := List.mem_filter.mp hi
      rw [Bool.and_eq_true, decide_eq_true_eq] at hfilter
      exact ⟨i, hmem, by rw [hfilter.1, show netFamily i.net = f from hfam], hfilter.2, hin⟩
  have hknock (f : Family) (a : IpAddr) : (k.running.sets now).addr (knockSet f) a =
      (rulesetSets k.cfg (k.admitted now) 0 (k.running.sets now).addr).addr (knockSet f) a := by
    rw [rulesetSets_knock]
    cases hsome : k.cfg.knock.isSome with
    | true => rw [Bool.true_and]
    | false =>
      rw [Bool.false_and, ← Bool.not_eq_true, mem_sets]
      rintro ⟨i, hi, hset, -⟩
      rcases h.items i hi with hplace | ⟨hk, -⟩
      · exact allowSet_ne_knockSet _ _ (hplace.symm.trans hset)
      · rw [hsome] at hk
        cases hk
  have hpublic (n : SetName) (hn : n = .publicTcp ∨ n = .publicUdp) (a : IpAddr) : (k.running.sets now).addr n a =
      (rulesetSets k.cfg (k.admitted now) 0 (k.running.sets now).addr).addr n a := by
    have hright : (rulesetSets k.cfg (k.admitted now) 0 (k.running.sets now).addr).addr n a = false := by
      rcases hn with rfl | rfl <;> cases hk : k.cfg.knock.isSome <;>
        simp [rulesetSets, Table.contents, rulesetTable, hk, portElems, Elem.hasAddr]
    rw [hright, ← Bool.not_eq_true, mem_sets]
    rintro ⟨i, hi, hset, -⟩
    rcases h.items i hi with hplace | ⟨-, b, hplace, -⟩
    · rw [hplace] at hset
      rcases hn with rfl | rfl <;> cases hfam : netFamily i.net <;> rw [hfam] at hset <;> cases hset
    · rw [hplace] at hset
      rcases hn with rfl | rfl <;> cases hfam : Family.of b <;> rw [hfam] at hset <;> cases hset
  obtain ⟨entries, time, htable⟩ := h.table
  refine congrArg₂ Sets.mk (funext fun n => funext fun a => ?_) (funext fun n => funext fun port => ?_)
  · cases n with
    | allow4 => exact hallow .ipv4 a
    | allow6 => exact hallow .ipv6 a
    | knock4 => exact hknock .ipv4 a
    | knock6 => exact hknock .ipv6 a
    | publicTcp => exact hpublic _ (.inl rfl) a
    | publicUdp => exact hpublic _ (.inr rfl) a
  · rw [htable]
    exact port_rulesetTable entries _ time 0 n port

/-- A packet is accepted by what the sets have of its source at the time. -/
theorem WellPlaced.verdict_iff (h : WellPlaced k) :
    k.verdict p now = .accept ↔ AcceptsAt k.cfg (InKnockSet k now p.saddr) (Admitted k now p.saddr) p := by
  have hdyn : (k.running.sets now).addr (knockSet p.family) p.saddr = true ↔ InKnockSet k now p.saddr := mem_sets
  have haccepts : Accepts k.cfg (k.admitted now) 0 (k.running.sets now).addr p ↔
      AcceptsAt k.cfg (InKnockSet k now p.saddr) (Admitted k now p.saddr) p := by
    unfold Accepts AcceptsWith AcceptsAt SshAdmits
    rw [hdyn, allowAdmits_admitted]
  have hverdict : k.verdict p now =
      ((inputChain k.cfg).eval (rulesetSets k.cfg (k.admitted now) 0 (k.running.sets now).addr) p).1 := by
    rw [← h.sets_eq]
    exact congrArg Prod.fst (packet_eval now)
  rw [hverdict, ← haccepts]
  by_cases hknock : Knocks k.cfg p
  · rw [inputChain_eval_knocks hknock]
    exact iff_of_false (fun heq => by cases heq) (not_accepts_of_knocks hknock)
  · exact (inputChain_eval_rest (k.admitted now) 0 (k.running.sets now).addr hknock).1

/-- Whatever is loaded, added and removed and whichever packets arrive: a packet is accepted if it
is one of a connection, of loopback or of the infrastructure, or goes to what is open, or its source
has knocked itself since the last load and in time, or an element of an allow set that has not run
out has its source. -/
theorem accepted_iff_knocked_or_admitted (cfg : RulesetConfig) (entries : List Entry) (start : DateTime)
    (es : List (Event × DateTime)) (k : Kernel) (hrun : Lts.run step (.load cfg entries start) es = some k)
    (p : Packet) (now : DateTime) (hnow : k.clock ≤ now) :
    inputChain k.cfg ∈ k.running.table.chains ∧
      (k.verdict p now = .accept ↔ AcceptsAt k.cfg (Knocked k.cfg es now p.saddr) (Admitted k now p.saddr) p) := by
  have hplaced := wellPlaced_run hrun
  obtain ⟨entries', time, htable⟩ := hplaced.table
  rw [hplaced.verdict_iff, inKnockSet_iff hrun hnow, htable]
  exact ⟨List.mem_cons_self .., Iff.rfl⟩

/-- SSH for the allowlist only, and a knock of sevens. -/
def closedConfig : RulesetConfig where
  sshPort := 22
  sshAllowlistOnly := true
  sshKnock := some ⟨40000, Vector.replicate 16 7⟩
  forwardAllowlistOnly := false
  publicTcp := []
  publicUdp := []

/-- The knock of a stranger. -/
def knockPacket : Packet :=
  ⟨false, .v4 (ipv4 198 51 100 9), .new, false, 0, [], 17,
    [0xc3, 0x50, 0x9c, 0x40, 0, 24, 0, 0] ++ List.replicate 16 7⟩

/-- The stranger's connection to SSH. -/
def sshPacket : Packet := ⟨false, .v4 (ipv4 198 51 100 9), .new, false, 0, [], 6, [0xc3, 0x50, 0, 22]⟩

theorem knockPacket_knocks : Knocks closedConfig knockPacket := by
  refine ⟨by simp [OfConnection, knockPacket], by simp [knockPacket], by simp [knockPacket], ?_,
    ⟨40000, Vector.replicate 16 7⟩, by decide⟩
  simp [SeenInfraIcmp, InfraIcmp, knockPacket, Packet.is, L4.number]

/-- The stranger who has knocked gets to SSH a second before the knock runs out. -/
theorem accepted_after_knock :
    (effect (.load closedConfig [] 0) 0 (.packet knockPacket)).verdict sshPacket (nanos 59) = .accept := by
  have hknocked : Knocked closedConfig [(.packet knockPacket, 0)] (nanos 59) sshPacket.saddr :=
    ⟨[], _, [], rfl, ⟨knockPacket, rfl, rfl, knockPacket_knocks, by decide⟩, by simp⟩
  refine (accepted_iff_knocked_or_admitted closedConfig [] 0 [(.packet knockPacket, 0)] _ rfl sshPacket (nanos 59)
    (by decide)).2.mpr (.inr ⟨by simp [sshPacket], .inr (.inr ⟨?_, .inl ⟨rfl, by decide, .inr ⟨rfl, hknocked⟩⟩⟩)⟩)
  rintro ⟨k, -, hudp, -⟩
  cases hudp

end Verdict

end Ipgate.Clock
