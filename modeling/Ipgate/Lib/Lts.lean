-- SUMMARY: Runs of partial transition functions, invariants over runs, and invariants under a condition on the steps.
import Mathlib.Data.List.Induction

/-!
# Runs of a labelled transition function

A system is a partial function from a state and an event to the next state.
Concurrency is in the choice of the events: a run is a list of events, and every
interleaving of the parties is one such list. The rules below lift what one step
preserves to every state of every run, with or without a condition on the steps
taken.
-/

namespace Lts

variable {σ ε : Type*} {step : σ → ε → Option σ} {s s' t t' : σ} {e : ε} {es es' : List ε}
variable {I P : σ → Prop} {C : σ → ε → Prop}

/-- The state after the events, if each of them is possible. -/
def run (step : σ → ε → Option σ) (s : σ) : List ε → Option σ
  | [] => some s
  | e :: es => (step s e).bind fun t => run step t es

@[simp] theorem run_nil : run step s [] = some s := rfl

theorem run_cons_iff : run step s (e :: es) = some s' ↔
    ∃ t, step s e = some t ∧ run step t es = some s' := by
  simp [run, Option.bind_eq_some_iff]

theorem run_append_iff : run step s (es ++ es') = some s' ↔
    ∃ t, run step s es = some t ∧ run step t es' = some s' := by
  induction es generalizing s with
  | nil => simp
  | cons e es ih =>
    simp only [List.cons_append, run_cons_iff, ih]
    constructor
    · rintro ⟨u, hu, t, ht, hs'⟩
      exact ⟨t, ⟨u, hu, ht⟩, hs'⟩
    · rintro ⟨t, ⟨u, hu, ht⟩, hs'⟩
      exact ⟨u, hu, t, ht, hs'⟩

/-- A system that can take every event has every run. -/
theorem exists_run {f : σ → ε → σ} (s : σ) (es : List ε) :
    ∃ s', run (fun s e => some (f s e)) s es = some s' := by
  induction es generalizing s with
  | nil => exact ⟨s, rfl⟩
  | cons e es ih => exact ih (f s e)

/-! ## Invariants -/

/-- What every step preserves holds after every run. -/
theorem run_invariant (hstep : ∀ s e s', I s → step s e = some s' → I s')
    (hs : I s) (hrun : run step s es = some s') : I s' := by
  induction es generalizing s with
  | nil => cases hrun; exact hs
  | cons e es ih =>
    obtain ⟨t, ht, hrun⟩ := run_cons_iff.mp hrun
    exact ih (hstep s e t hs ht) hrun

/-- A relation that every step keeps to, and that can be composed, holds between the ends of a run. -/
theorem run_relation {R : σ → σ → Prop} (hrefl : ∀ s, R s s) (htrans : ∀ s t u, R s t → R t u → R s u)
    (hstep : ∀ s e t, step s e = some t → R s t) (hrun : run step s es = some s') : R s s' := by
  induction es generalizing s with
  | nil =>
    cases hrun
    exact hrefl _
  | cons e es ih =>
    obtain ⟨t, ht, hrun⟩ := run_cons_iff.mp hrun
    exact htrans s t s' (hstep s e t ht) (ih hrun)

/-- What a run has made of the state, by induction on its last event. -/
theorem run_history {P : List ε → σ → Prop} (hnil : P [] s)
    (hstep : ∀ xs t e t', run step s xs = some t → P xs t → step t e = some t' → P (xs ++ [e]) t')
    (hrun : run step s es = some s') : P es s' := by
  induction es using List.reverseRecOn generalizing s' with
  | nil => cases hrun; exact hnil
  | append_singleton xs e ih =>
    obtain ⟨t, hxs, he⟩ := run_append_iff.mp hrun
    obtain ⟨u, hu, hnil'⟩ := run_cons_iff.mp he
    cases hnil'
    exact hstep xs t e _ hxs (ih hxs) hu

/-- Every step of the run is taken in a state where the condition holds of it. -/
def StepsMeet (step : σ → ε → Option σ) (C : σ → ε → Prop) (s : σ) : List ε → Prop
  | [] => True
  | e :: es => C s e ∧ ∀ t, step s e = some t → StepsMeet step C t es

@[simp] theorem stepsMeet_nil : StepsMeet step C s [] := trivial

theorem stepsMeet_cons (hstep : step s e = some t) :
    StepsMeet step C s (e :: es) ↔ C s e ∧ StepsMeet step C t es := by
  simp [StepsMeet, hstep]

/-- On a given run a decidable condition can be checked. -/
instance instDecidableStepsMeet [∀ s e, Decidable (C s e)] : (s : σ) → (es : List ε) →
    Decidable (StepsMeet step C s es)
  | _, [] => .isTrue trivial
  | s, e :: es =>
    match h : step s e with
    | some t =>
      have := instDecidableStepsMeet t es
      decidable_of_iff (C s e ∧ StepsMeet step C t es) (stepsMeet_cons h).symm
    | none => decidable_of_iff (C s e) ⟨fun hc => ⟨hc, fun t ht => by rw [h] at ht; cases ht⟩, And.left⟩

theorem stepsMeet_append (hrun : run step s es = some t) :
    StepsMeet step C s (es ++ es') ↔ StepsMeet step C s es ∧ StepsMeet step C t es' := by
  induction es generalizing s with
  | nil => cases hrun; simp
  | cons e es ih =>
    obtain ⟨u, hu, hrun⟩ := run_cons_iff.mp hrun
    simp only [List.cons_append, stepsMeet_cons hu, ih hrun, and_assoc]

/-- What every step that meets the condition preserves holds after every run of
such steps. -/
theorem run_invariant_of_stepsMeet
    (hstep : ∀ s e s', I s → C s e → step s e = some s' → I s')
    (hs : I s) (hmeet : StepsMeet step C s es) (hrun : run step s es = some s') : I s' := by
  induction es generalizing s with
  | nil => cases hrun; exact hs
  | cons e es ih =>
    obtain ⟨t, ht, hrun⟩ := run_cons_iff.mp hrun
    obtain ⟨hc, hmeet⟩ := (stepsMeet_cons ht).mp hmeet
    exact ih (hstep s e t hs hc ht) hmeet hrun

theorem stepsMeet_snoc (hrun : run step s es = some t) :
    StepsMeet step C s (es ++ [e]) ↔ StepsMeet step C s es ∧ C t e := by
  rw [stepsMeet_append hrun]
  simp [StepsMeet]

theorem StepsMeet.and {D : σ → ε → Prop} (hC : StepsMeet step C s es) (hD : StepsMeet step D s es) :
    StepsMeet step (fun s e => C s e ∧ D s e) s es := by
  induction es generalizing s with
  | nil => trivial
  | cons e es ih =>
    exact ⟨⟨hC.1, hD.1⟩, fun t ht => ih (hC.2 t ht) (hD.2 t ht)⟩

/-- What every event of the run meets can be added to a condition on the steps. -/
theorem StepsMeet.and_mem {D : ε → Prop} (hD : ∀ e ∈ es, D e) (hmeet : StepsMeet step C s es) :
    StepsMeet step (fun s e => C s e ∧ D e) s es := by
  induction es generalizing s with
  | nil => trivial
  | cons e es ih =>
    obtain ⟨hc, hrest⟩ := hmeet
    exact ⟨⟨hc, hD e (List.mem_cons_self ..)⟩,
      fun t ht => ih (fun e' he' => hD e' (List.mem_cons_of_mem e he')) (hrest t ht)⟩

/-- Under an invariant, a condition on the steps may be replaced by what it implies. -/
theorem StepsMeet.of_invariant {D : σ → ε → Prop}
    (hstep : ∀ s e s', I s → C s e → step s e = some s' → I s') (hD : ∀ s e, I s → C s e → D s e)
    (hs : I s) (hmeet : StepsMeet step C s es) : StepsMeet step D s es := by
  induction es generalizing s with
  | nil => trivial
  | cons e es ih =>
    obtain ⟨hc, hrest⟩ := hmeet
    exact ⟨hD s e hs hc, fun t ht => ih (hstep s e t hs hc ht) (hrest t ht)⟩

/-! ## Every state of a run -/

/-- `P` holds in the first state and in every state the run passes through. -/
def Always (step : σ → ε → Option σ) (P : σ → Prop) (s : σ) (es : List ε) : Prop :=
  ∀ pre post t, es = pre ++ post → run step s pre = some t → P t

theorem Always.head (h : Always step P s es) : P s := h [] es s rfl rfl

theorem Always.tail (h : Always step P s (e :: es)) (hstep : step s e = some t) :
    Always step P t es := by
  rintro pre post u rfl hu
  exact h (e :: pre) post u rfl (run_cons_iff.mpr ⟨t, hstep, hu⟩)

theorem Always.cons (h : Always step P t es) (hs : P s) (hstep : step s e = some t) : Always step P s (e :: es) := by
  intro pre post u hsplit hu
  cases pre with
  | nil =>
    cases hu
    exact hs
  | cons e' pre =>
    obtain ⟨rfl, rfl⟩ := List.cons.inj hsplit
    obtain ⟨v, hv, hu⟩ := run_cons_iff.mp hu
    obtain rfl : t = v := Option.some.inj (hstep.symm.trans hv)
    exact h pre post u rfl hu

theorem always_nil (hs : P s) : Always step P s [] := by
  intro pre post t hsplit hrun
  obtain ⟨rfl, -⟩ := List.append_eq_nil_iff.mp hsplit.symm
  cases hrun
  exact hs

/-- A run that goes on to a state with `P` still passes through such states only. -/
theorem Always.snoc (h : Always step P s es) (hrun : run step s es = some t) (hstep : step t e = some t')
    (ht' : P t') : Always step P s (es ++ [e]) := by
  intro pre post u hsplit hu
  cases List.eq_nil_or_concat post with
  | inl hnil =>
    subst hnil
    rw [List.append_nil] at hsplit
    subst hsplit
    obtain ⟨v, hv, hlast⟩ := run_append_iff.mp hu
    obtain rfl : t = v := Option.some.inj (hrun.symm.trans hv)
    obtain ⟨w, hw, hnil⟩ := run_cons_iff.mp hlast
    cases hnil
    obtain rfl : t' = _ := Option.some.inj (hstep.symm.trans hw)
    exact ht'
  | inr hlast =>
    obtain ⟨post', e', rfl⟩ := hlast
    rw [List.concat_eq_append, ← List.append_assoc] at hsplit
    exact h pre post' u (List.append_inj_left' hsplit rfl) hu

/-- Under an invariant, a run whose steps meet the condition keeps `P`. -/
theorem always_of_stepsMeet (hI : ∀ s, I s → P s)
    (hstep : ∀ s e s', I s → C s e → step s e = some s' → I s')
    (hs : I s) (hmeet : StepsMeet step C s es) : Always step P s es := by
  rintro pre post t rfl hrun
  exact hI t (run_invariant_of_stepsMeet hstep hs ((stepsMeet_append hrun).mp hmeet).1 hrun)

/-- Where the condition says exactly when a step keeps `P`, from states with `I` that it never
leaves, a run passes through states with `P` only, exactly when each of its steps meets the
condition. -/
theorem always_iff_stepsMeet_of_invariant
    (hstep : ∀ s e s', I s → P s → step s e = some s' → I s' ∧ (P s' ↔ C s e))
    (hI : I s) (hs : P s) (hrun : run step s es = some s') :
    Always step P s es ↔ StepsMeet step C s es := by
  induction es generalizing s with
  | nil => exact iff_of_true (always_nil hs) trivial
  | cons e es ih =>
    obtain ⟨t, ht, hrun⟩ := run_cons_iff.mp hrun
    obtain ⟨hIt, hiff⟩ := hstep s e t hI hs ht
    rw [stepsMeet_cons ht]
    constructor
    · intro h
      have htail := h.tail ht
      exact ⟨hiff.mp htail.head, (ih hIt htail.head hrun).mp htail⟩
    · intro h
      exact ((ih hIt (hiff.mpr h.1) hrun).mpr h.2).cons hs ht

theorem always_iff_stepsMeet (hstep : ∀ s e s', P s → step s e = some s' → (P s' ↔ C s e))
    (hs : P s) (hrun : run step s es = some s') :
    Always step P s es ↔ StepsMeet step C s es :=
  always_iff_stepsMeet_of_invariant (I := fun _ => True)
    (fun s e s' _ hP hst => ⟨trivial, hstep s e s' hP hst⟩) trivial hs hrun

/-! ## The past of a run -/

/-- Some event of the list is one with `P`, and all behind it are ones with `Q`. -/
def Since (P Q : ε → Prop) (es : List ε) : Prop := ∃ pre e post, es = pre ++ e :: post ∧ P e ∧ ∀ e' ∈ post, Q e'

section Past

variable {P Q : ε → Prop}

theorem not_since_nil : ¬Since P Q ([] : List ε) := by
  rintro ⟨pre, e, post, hsplit, -⟩
  cases pre <;> cases hsplit

theorem since_concat : Since P Q (es ++ [e]) ↔ P e ∨ (Q e ∧ Since P Q es) := by
  constructor
  · rintro ⟨pre, e', post, hsplit, hP, hQ⟩
    cases List.eq_nil_or_concat post with
    | inl hnil =>
      subst hnil
      obtain ⟨-, hlast⟩ := List.append_inj' hsplit rfl
      obtain ⟨rfl, -⟩ := List.cons.inj hlast
      exact .inl hP
    | inr hlast =>
      obtain ⟨post', d, rfl⟩ := hlast
      rw [List.concat_eq_append] at hsplit hQ
      rw [← List.cons_append, ← List.append_assoc] at hsplit
      obtain ⟨rfl, hd⟩ := List.append_inj' hsplit rfl
      obtain ⟨rfl, -⟩ := List.cons.inj hd
      exact .inr ⟨hQ _ (List.mem_append_right _ (List.mem_singleton_self _)), pre, e', post', rfl, hP,
        fun c hc => hQ c (List.mem_append_left _ hc)⟩
  · rintro (hP | ⟨hQ, pre, e', post, rfl, hP, hpost⟩)
    · exact ⟨es, e, [], rfl, hP, fun _ hmem => by cases hmem⟩
    · refine ⟨pre, e', post ++ [e], by rw [List.append_assoc, List.cons_append], hP, fun c hc => ?_⟩
      cases List.mem_append.mp hc with
      | inl hmem => exact hpost c hmem
      | inr hmem =>
        rw [List.mem_singleton.mp hmem]
        exact hQ

/-- A step of the run met `C`, and every state from the one it led to has `P`. -/
def EverSince (step : σ → ε → Option σ) (C : σ → ε → Prop) (P : σ → Prop) (s : σ) (es : List ε) : Prop :=
  ∃ xs e ys t t', es = xs ++ e :: ys ∧ run step s xs = some t ∧ C t e ∧ step t e = some t' ∧ Always step P t' ys

theorem EverSince.snoc {P : σ → Prop} (h : EverSince step C P s es) (hrun : run step s es = some t)
    (hstep : step t e = some t') (ht' : P t') : EverSince step C P s (es ++ [e]) := by
  obtain ⟨xs, d, ys, u, u', rfl, hxs, hc, hd, halways⟩ := h
  obtain ⟨v, hv, hys⟩ := run_append_iff.mp hrun
  obtain rfl : u = v := Option.some.inj (hxs.symm.trans hv)
  obtain ⟨v', hv', hys⟩ := run_cons_iff.mp hys
  obtain rfl : u' = v' := Option.some.inj (hd.symm.trans hv')
  exact ⟨xs, d, ys ++ [e], u, u', by simp, hxs, hc, hd, halways.snoc hys hstep ht'⟩

/-- What does not hold at first and holds in the end has held ever since some step that made it
hold. -/
theorem everSince_of_run {P : σ → Prop} (hI : ∀ t e t', I t → step t e = some t' → I t')
    (hmakes : ∀ t e t', I t → ¬P t → step t e = some t' → P t' → C t e)
    (hs : I s) (hnot : ¬P s) (hrun : run step s es = some t) (ht : P t) : EverSince step C P s es := by
  have hall : I t ∧ (P t → EverSince step C P s es) := by
    refine run_history (P := fun xs t => I t ∧ (P t → EverSince step C P s xs)) ?_ ?_ hrun
    · exact ⟨hs, fun h => (hnot h).elim⟩
    · intro xs t e t' hxs ih hstep
      refine ⟨hI t e t' ih.1 hstep, fun ht' => ?_⟩
      by_cases ht : P t
      · exact (ih.2 ht).snoc hxs hstep ht'
      · exact ⟨xs, e, [], t, t', rfl, hxs, hmakes t e t' ih.1 ht hstep ht', hstep, always_nil ht'⟩
  exact hall.2 ht

end Past

/-! ## Two runs -/

/-- Seen through `f`, a run of the first system is one of the second where each step is, from states with the
invariant and under the condition. -/
theorem run_map {σ' : Type*} {step' : σ' → ε → Option σ'} {f : σ → σ'}
    (hsame : ∀ s e, I s → C s e → step' (f s) e = (step s e).map f)
    (hstep : ∀ s e t, I s → C s e → step s e = some t → I t) (hs : I s) (hmeet : StepsMeet step C s es) :
    run step' (f s) es = (run step s es).map f := by
  induction es generalizing s with
  | nil => rfl
  | cons e es ih =>
    obtain ⟨hc, hrest⟩ := hmeet
    unfold run
    rw [hsame s e hs hc]
    cases hnext : step s e with
    | none => rfl
    | some t => exact ih (hstep s e t hs hc hnext) (hrest t hnext)

/-- Two runs that agree on the visible events end in related states, where the other events keep to
the relation on each side alone and the visible ones do so when both sides take them. -/
theorem run_unwinding (R : σ → σ → Prop) (vis : ε → Bool)
    (hleft : ∀ s s' t e, R s s' → vis e = false → step s e = some t → R t s')
    (hright : ∀ s s' t' e, R s s' → vis e = false → step s' e = some t' → R s t')
    (hboth : ∀ s s' t t' e, R s s' → vis e = true → step s e = some t → step s' e = some t' → R t t')
    (hR : R s s') (hrun : run step s es = some t) (hrun' : run step s' es' = some t')
    (hsame : es.filter vis = es'.filter vis) : R t t' := by
  induction es generalizing s s' es' with
  | nil =>
    cases hrun
    induction es' generalizing s' with
    | nil =>
      cases hrun'
      exact hR
    | cons e' es' ih' =>
      obtain ⟨u', hu', hrest'⟩ := run_cons_iff.mp hrun'
      cases he' : vis e' with
      | true => simp [he'] at hsame
      | false => exact ih' hrest' (by simpa [he'] using hsame) (hright _ _ _ _ hR he' hu')
  | cons e es ih =>
    obtain ⟨u, hu, hrest⟩ := run_cons_iff.mp hrun
    cases he : vis e with
    | false => exact ih (hleft _ _ _ _ hR he hu) hrest hrun' (by simpa [he] using hsame)
    | true =>
      -- The other run takes the event too, behind some that are not seen.
      induction es' generalizing s' with
      | nil => simp [he] at hsame
      | cons e' es' ih' =>
        obtain ⟨u', hu', hrest'⟩ := run_cons_iff.mp hrun'
        cases he' : vis e' with
        | false => exact ih' (hright _ _ _ _ hR he' hu') hrest' (by simpa [he'] using hsame)
        | true =>
          rw [List.filter_cons_of_pos he, List.filter_cons_of_pos he'] at hsame
          obtain ⟨rfl, hfilter⟩ := List.cons.inj hsame
          exact ih (hboth _ _ _ _ _ hR he hu hu') hrest hrest' hfilter

end Lts
