-- SUMMARY: The nftables backend, the world the agent runs in, and applying a ruleset with its fallbacks.
import Ipgate.Lib.Act
import Ipgate.Lib.Nft
import Ipgate.Lib.Text
import Ipgate.Agent.Config

/-!
# Applying a ruleset

The forward gate and the knock rules are optional: when the backend refuses a
ruleset that has them, `applyRuleset` offers it again without one, without the
other, and without both. `ladder` describes the same by the list of rulesets
offered, and `applyRuleset_ladder` says that the code follows it.
-/

namespace Ipgate

open Net

/-! ## The backend -/

/-- What the agent asks of nftables. Everything that decides about success and
failure is in `κ`, and every call may change it. -/
structure NftBackend (κ : Type) where
  /-- Rebuild the whole table, atomically. -/
  apply : RulesetConfig → List Entry → κ → Except String Unit × κ
  add : Entry → κ → Except String Unit × κ
  remove : IpNet → κ → Except String Unit × κ
  list : κ → Except String (List KernelElement) × κ

/-- The backend and the disk. -/
structure Host (κ : Type) extends NftBackend κ where
  /-- Write the state file. -/
  save : State → κ → Except String Unit × κ

/-- Whether the optional rules took effect after the last rebuild. -/
structure Live where
  gate : Bool
  knock : Bool
  deriving DecidableEq

/-- The store and the reported settings, with the world outside and the ruleset
that the kernel accepted last. -/
structure World (κ : Type) where
  store : State
  live : Live
  host : κ
  accepted : RulesetConfig

/-- What became of an optional part of the ruleset. -/
inductive Gate where
  /-- It was not asked for. -/
  | off
  | active
  /-- It was asked for and left out, after the error. -/
  | rejected (error : String)
  deriving DecidableEq

def Gate.isActive : Gate → Bool
  | .active => true
  | _ => false

structure Applied where
  gate : Gate
  knock : Gate
  deriving DecidableEq

def Live.record (a : Applied) : Live := ⟨a.gate.isActive, a.knock.isActive⟩

variable {κ : Type} (H : Host κ)

/-- One call of the backend's `apply`. When it fails the kernel keeps its table. -/
def callApply (c : RulesetConfig) (entries : List Entry) : Act (World κ) String Unit := fun w =>
  match H.apply c entries w.host with
  | (.ok (), k) => (.ok (), { w with host := k, accepted := c })
  | (.error e, k) => (.error e, { w with host := k })

def callAdd (entry : Entry) : Act (World κ) String Unit := fun w =>
  ((H.add entry w.host).1, { w with host := (H.add entry w.host).2 })

def callRemove (target : IpNet) : Act (World κ) String Unit := fun w =>
  ((H.remove target w.host).1, { w with host := (H.remove target w.host).2 })

def callList : Act (World κ) String (List KernelElement) := fun w =>
  ((H.list w.host).1, { w with host := (H.list w.host).2 })

/-- Write the store to disk. -/
def callSave : Act (World κ) String Unit := fun w =>
  ((H.save w.store w.host).1, { w with host := (H.save w.store w.host).2 })

/-! ## Errors without the token -/

/-- `nft` repeats the line in error, which may be a knock rule with its token. -/
def redact (cfg : RulesetConfig) (e : String) : String :=
  match cfg.sshKnock with
  | some k => Text.replaceAll e (Text.toHex k.token.toList) "<token>"
  | none => e

/-! ## The fallbacks -/

/-- The ruleset with or without the knock rules and the forward gate. -/
def candidate (cfg : RulesetConfig) (knock gate : Bool) : RulesetConfig :=
  { cfg with forwardAllowlistOnly := gate, sshKnock := if knock then cfg.sshKnock else none }

/-- What to report of a part that was wanted or not, and that the accepted ruleset
has or not. -/
def gateState (reason : String) (want got : Bool) : Gate :=
  match want, got with
  | false, _ => .off
  | true, true => .active
  | true, false => .rejected reason

/-- Offer the candidates in turn, skipping those tried before, until one is
accepted. The first error is kept as the reason of a rejection. -/
def tryCandidates (cfg : RulesetConfig) (entries : List Entry) :
    List (Bool × Bool) → List (Bool × Bool) → Option String → Act (World κ) String Applied
  -- The first candidate was tried, so there is an error.
  | [], _, firstErr => .fail (firstErr.getD "")
  | cand :: rest, tried, firstErr =>
    if cand ∈ tried then tryCandidates cfg entries rest tried firstErr
    else do
      let r ← .attempt (.mapErr (redact cfg) (callApply H (candidate cfg cand.1 cand.2) entries))
      match r with
      | .ok () =>
        let reason := firstErr.getD ""
        return ⟨gateState reason cfg.forwardAllowlistOnly cand.2, gateState reason cfg.knock.isSome cand.1⟩
      | .error e =>
        match firstErr with
        | none => tryCandidates cfg entries rest (cand :: tried) (some e)
        | some first =>
          if cand = (false, false) then .fail e
          else tryCandidates cfg entries rest (cand :: tried) (some first)

def applyRuleset (cfg : RulesetConfig) (entries : List Entry) : Act (World κ) String Applied :=
  let wantGate := cfg.forwardAllowlistOnly
  let wantKnock := cfg.knock.isSome
  tryCandidates H cfg entries
    [(wantKnock, wantGate), (false, wantGate), (wantKnock, false), (false, false)] [] none

/-! ## The ladder -/

/-- What is offered, in order: everything, then without the knock rules, without
the gate, without both. -/
def rungs (cfg : RulesetConfig) : List (Bool × Bool) :=
  match cfg.knock.isSome, cfg.forwardAllowlistOnly with
  | true, true => [(true, true), (false, true), (true, false), (false, false)]
  | true, false => [(true, false), (false, false)]
  | false, true => [(false, true), (false, false)]
  | false, false => [(false, false)]

/-- The first rung the backend accepts, and what the calls leave behind. -/
def climb (cfg : RulesetConfig) (entries : List Entry) : List (Bool × Bool) → κ → Option (Bool × Bool) × κ
  | [], k => (none, k)
  | c :: cs, k =>
    match H.apply (candidate cfg c.1 c.2) entries k with
    | (.ok (), k') => (some c, k')
    | (.error _, k') => climb cfg entries cs k'

def ladder (cfg : RulesetConfig) (entries : List Entry) (k : κ) : Option (Bool × Bool) × κ :=
  climb H cfg entries (rungs cfg) k

/-- A rung has no part that is not wanted. -/
theorem mem_rungs {cfg : RulesetConfig} {c : Bool × Bool} (h : c ∈ rungs cfg) :
    (c.1 = true → cfg.knock.isSome = true) ∧ (c.2 = true → cfg.forwardAllowlistOnly = true) := by
  revert h
  unfold rungs
  cases cfg.knock.isSome <;> cases cfg.forwardAllowlistOnly <;> revert c <;> decide

theorem candidate_knock (cfg : RulesetConfig) (knock gate : Bool) :
    (candidate cfg knock gate).knock = if knock then cfg.knock else none := by
  cases knock <;> rfl

/-! ## The code follows the ladder -/

section Follows

variable {H} {cfg : RulesetConfig} {entries : List Entry} {cand : Bool × Bool}
variable {cs rest tried : List (Bool × Bool)} {firstErr : Option String} {w : World κ} {k : κ} {e : String}

/-- The candidates not skipped. -/
def untried : List (Bool × Bool) → List (Bool × Bool) → List (Bool × Bool)
  | [], _ => []
  | c :: cs, tried => if c ∈ tried then untried cs tried else c :: untried cs (c :: tried)

theorem untried_eq_nil (h : ∀ c ∈ cs, c ∈ tried) : untried cs tried = [] := by
  induction cs with
  | nil => rfl
  | cons c cs ih =>
    unfold untried
    rw [if_pos (h c (List.mem_cons_self ..))]
    exact ih fun d hd => h d (List.mem_cons_of_mem c hd)

theorem untried_candidates (cfg : RulesetConfig) :
    untried [(cfg.knock.isSome, cfg.forwardAllowlistOnly), (false, cfg.forwardAllowlistOnly),
      (cfg.knock.isSome, false), (false, false)] [] = rungs cfg := by
  unfold rungs
  cases cfg.knock.isSome <;> cases cfg.forwardAllowlistOnly <;> rfl

theorem tryCandidates_tried (h : cand ∈ tried) :
    tryCandidates H cfg entries (cand :: rest) tried firstErr =
      tryCandidates H cfg entries rest tried firstErr := by
  rw [tryCandidates, if_pos h]

theorem tryCandidates_accepted (h : cand ∉ tried)
    (happly : H.apply (candidate cfg cand.1 cand.2) entries w.host = (.ok (), k)) :
    tryCandidates H cfg entries (cand :: rest) tried firstErr w =
      (.ok ⟨gateState (firstErr.getD "") cfg.forwardAllowlistOnly cand.2,
        gateState (firstErr.getD "") cfg.knock.isSome cand.1⟩,
      { w with host := k, accepted := candidate cfg cand.1 cand.2 }) := by
  have hcall : callApply H (candidate cfg cand.1 cand.2) entries w =
      (.ok (), { w with host := k, accepted := candidate cfg cand.1 cand.2 }) := by
    unfold callApply
    rw [happly]
  unfold tryCandidates
  rw [if_neg h, Act.bind_run_ok (Act.attempt_run _ _), Act.mapErr_run, hcall]
  rfl

theorem tryCandidates_refused (h : cand ∉ tried)
    (happly : H.apply (candidate cfg cand.1 cand.2) entries w.host = (.error e, k)) :
    tryCandidates H cfg entries (cand :: rest) tried firstErr w =
      if firstErr.isSome ∧ cand = (false, false) then (.error (redact cfg e), { w with host := k })
      else tryCandidates H cfg entries rest (cand :: tried)
        (some (firstErr.getD (redact cfg e))) { w with host := k } := by
  have hcall : callApply H (candidate cfg cand.1 cand.2) entries w = (.error e, { w with host := k }) := by
    unfold callApply
    rw [happly]
  rw [tryCandidates, if_neg h, Act.bind_run_ok (Act.attempt_run _ _), Act.mapErr_run, hcall]
  cases firstErr with
  | none => rfl
  | some first =>
    simp only [Except.mapError, Option.isSome_some, true_and, Option.getD_some]
    split <;> rfl

/-- How a rebuild ends, given where the ladder ends. -/
def Rebuilds (cfg : RulesetConfig) (w : World κ) (end_ : Option (Bool × Bool) × κ)
    (r : Except String Applied) (w' : World κ) : Prop :=
  match end_ with
  | (some c, k) => w' = { w with host := k, accepted := candidate cfg c.1 c.2 } ∧
      ∃ reason, r = .ok ⟨gateState reason cfg.forwardAllowlistOnly c.2, gateState reason cfg.knock.isSome c.1⟩
  | (none, k) => w' = { w with host := k } ∧ ∃ e, r = .error e

/-- Calls that were refused leave nothing but the world outside. -/
theorem rebuilds_host {end_ : Option (Bool × Bool) × κ} {r : Except String Applied} {w' : World κ} :
    Rebuilds cfg { w with host := k } end_ r w' ↔ Rebuilds cfg w end_ r w' := by
  rcases end_ with ⟨_ | _, _⟩ <;> exact Iff.rfl

/-- After the candidate without both parts nothing new is offered. -/
def EndsPlain (cs tried : List (Bool × Bool)) : Prop :=
  ∀ pre post, cs = pre ++ (false, false) :: post → ∀ c ∈ post, c ∈ tried ∨ c ∈ pre ∨ c = (false, false)

theorem EndsPlain.nil : EndsPlain [] tried := by
  intro pre post hsplit
  cases pre <;> cases hsplit

theorem EndsPlain.cons (h : EndsPlain rest (cand :: tried))
    (hplain : cand = (false, false) → ∀ c ∈ rest, c ∈ tried ∨ c = (false, false)) :
    EndsPlain (cand :: rest) tried := by
  intro pre post hsplit c hc
  cases pre with
  | nil =>
    obtain ⟨rfl, rfl⟩ := List.cons.inj hsplit
    exact (hplain rfl c hc).imp_right .inr
  | cons p pre =>
    obtain ⟨rfl, rfl⟩ := List.cons.inj hsplit
    rcases h pre post rfl c hc with htried | hpre | hplain
    · rcases List.mem_cons.mp htried with rfl | htried
      · exact .inr (.inl (List.mem_cons_self ..))
      · exact .inl htried
    · exact .inr (.inl (List.mem_cons_of_mem _ hpre))
    · exact .inr (.inr hplain)

theorem EndsPlain.tail (h : EndsPlain (cand :: rest) tried) : EndsPlain rest (cand :: tried) := by
  intro pre post hsplit c hc
  rcases h (cand :: pre) post (by rw [hsplit]; rfl) c hc with htried | hpre | hplain
  · exact .inl (List.mem_cons_of_mem _ htried)
  · rcases List.mem_cons.mp hpre with rfl | hpre
    · exact .inl (List.mem_cons_self ..)
    · exact .inr (.inl hpre)
  · exact .inr (.inr hplain)

theorem EndsPlain.skip (h : EndsPlain (cand :: rest) tried) (hcand : cand ∈ tried) :
    EndsPlain rest tried := by
  intro pre post hsplit c hc
  rcases h (cand :: pre) post (by rw [hsplit]; rfl) c hc with htried | hpre | hplain
  · exact .inl htried
  · rcases List.mem_cons.mp hpre with rfl | hpre
    · exact .inl hcand
    · exact .inr (.inl hpre)
  · exact .inr (.inr hplain)

theorem EndsPlain.nothing_after (h : EndsPlain ((false, false) :: rest) tried) :
    untried rest ((false, false) :: tried) = [] := by
  refine untried_eq_nil fun c hc => ?_
  rcases h [] rest rfl c hc with htried | hpre | rfl
  · exact List.mem_cons_of_mem _ htried
  · cases hpre
  · exact List.mem_cons_self ..

/-- Trying the candidates is climbing the ones not skipped. -/
theorem tryCandidates_climb (h : EndsPlain cs tried) :
    Act.wp (tryCandidates H cfg entries cs tried firstErr)
      (Rebuilds cfg w (climb H cfg entries (untried cs tried) w.host)) w := by
  induction cs generalizing tried firstErr w with
  | nil => exact ⟨rfl, _, rfl⟩
  | cons cand rest ih =>
    by_cases hcand : cand ∈ tried
    · rw [tryCandidates_tried hcand, untried, if_pos hcand]
      exact ih (h.skip hcand)
    · unfold untried
      rw [if_neg hcand, climb]
      rcases happly : H.apply (candidate cfg cand.1 cand.2) entries w.host with ⟨e | _, k⟩
      · unfold Act.wp
        rw [tryCandidates_refused hcand happly]
        by_cases hstop : firstErr.isSome ∧ cand = (false, false)
        · obtain ⟨hsome, rfl⟩ := hstop
          rw [if_pos ⟨hsome, rfl⟩, h.nothing_after]
          exact ⟨rfl, _, rfl⟩
        · rw [if_neg hstop, ← rebuilds_host]
          exact ih h.tail
      · unfold Act.wp
        rw [tryCandidates_accepted hcand happly]
        exact ⟨rfl, _, rfl⟩

/-- A rebuild ends where the ladder ends. -/
theorem applyRuleset_ladder (cfg : RulesetConfig) (entries : List Entry) (w : World κ) :
    Act.wp (applyRuleset H cfg entries) (Rebuilds cfg w (ladder H cfg entries w.host)) w := by
  unfold ladder
  rw [← untried_candidates]
  apply tryCandidates_climb
  cases cfg.knock.isSome <;> cases cfg.forwardAllowlistOnly <;>
    exact .cons (.cons (.cons (.cons .nil (by simp)) (by simp)) (by simp)) (by simp)

end Follows

end Ipgate
