-- SUMMARY: Computations over a state that may fail and keep the state they reached, with a weakest precondition.
import Mathlib.Data.List.Basic

/-!
# Fallible actions

An action reads and changes a state and ends with a value or an error. An error
does not undo what the action has done before. `wp` is the weakest precondition
of an action for a condition on its result and on the state it leaves; each
construct has a rule that computes it.
-/

/-- A sequence of computations that ends well went well all along. -/
theorem Except.bind_eq_ok {ε α β : Type} {x : Except ε α} {f : α → Except ε β} {b : β} :
    (x >>= f) = .ok b ↔ ∃ a, x = .ok a ∧ f a = .ok b := by
  cases x with
  | error e =>
    refine ⟨nofun, ?_⟩
    rintro ⟨a, ha, -⟩
    cases ha
  | ok a =>
    refine ⟨fun h => ⟨a, rfl, h⟩, ?_⟩
    rintro ⟨a, ⟨⟩, h⟩
    exact h

theorem Except.toOption_eq_some {ε α : Type} {x : Except ε α} {a : α} : x.toOption = some a ↔ x = .ok a := by
  cases x with
  | error e => simp [Except.toOption]
  | ok b => simp [Except.toOption]

/-- A computation over `σ` with errors `ε`. -/
def Act (σ ε α : Type) : Type := σ → Except ε α × σ

namespace Act

variable {σ ε ε' α β : Type}

protected def pure (a : α) : Act σ ε α := fun s => (.ok a, s)

protected def bind (m : Act σ ε α) (f : α → Act σ ε β) : Act σ ε β := fun s =>
  match m s with
  | (.ok a, s') => f a s'
  | (.error e, s') => (.error e, s')

instance : Monad (Act σ ε) where
  pure := Act.pure
  bind := Act.bind

def fail (e : ε) : Act σ ε α := fun s => (.error e, s)

def get : Act σ ε σ := fun s => (.ok s, s)

/-- A result that is there already. -/
def lift (r : Except ε α) : Act σ ε α := fun s => (r, s)

/-- Replace the state and return a value computed from it. -/
def update (f : σ → α × σ) : Act σ ε α := fun s => (.ok (f s).1, (f s).2)

def modify (f : σ → σ) : Act σ ε Unit := fun s => (.ok (), f s)

/-- Turn the error of an action into another. -/
def mapErr (f : ε → ε') (m : Act σ ε α) : Act σ ε' α := fun s => ((m s).1.mapError f, (m s).2)

/-- The result of an action as a value. -/
def attempt (m : Act σ ε α) : Act σ ε' (Except ε α) := fun s => (.ok (m s).1, (m s).2)

/-- Run an action and go on whatever its result. -/
def ignore (m : Act σ ε α) : Act σ ε' Unit := fun s => (.ok (), (m s).2)

/-- Run an action for its effect. -/
def discard (m : Act σ ε α) : Act σ ε Unit := fun s => ((m s).1.map fun _ => (), (m s).2)

def onlyIf (c : Bool) (m : Act σ ε Unit) : Act σ ε Unit := if c then m else pure ()

/-- Run an action on a part of the state. -/
def zoom {τ : Type} (part : σ → τ) (put : τ → σ → σ) (m : Act τ ε α) : Act σ ε α :=
  fun s => ((m (part s)).1, put (m (part s)).2 s)

/-- Run an action for every element of a list. -/
def forEach (f : α → Act σ ε Unit) : List α → Act σ ε Unit
  | [] => pure ()
  | a :: rest => do
    f a
    forEach f rest

/-! ## Running an action -/

theorem bind_run_ok {m : Act σ ε α} {f : α → Act σ ε β} {s s' : σ} {a : α} (h : m s = (.ok a, s')) :
    (m >>= f) s = f a s' := by
  show Act.bind m f s = f a s'
  rw [Act.bind, h]

theorem lift_bind {f : α → Act σ ε β} {a : α} : (lift (.ok a) >>= f) = f a := rfl

theorem attempt_run (m : Act σ ε α) (s : σ) :
    (attempt m : Act σ ε' _) s = (.ok (m s).1, (m s).2) := rfl

theorem mapErr_run (g : ε → ε') (m : Act σ ε α) (s : σ) :
    mapErr g m s = ((m s).1.mapError g, (m s).2) := rfl

/-! ## Weakest preconditions -/

/-- The action, started in `s`, ends with a result and a state that meet `Q`. -/
def wp (m : Act σ ε α) (Q : Except ε α → σ → Prop) (s : σ) : Prop := Q (m s).1 (m s).2

variable {m : Act σ ε α} {f : α → Act σ ε β} {s : σ}
variable {Q Q' : Except ε α → σ → Prop} {R : Except ε β → σ → Prop}

@[simp] theorem wp_pure {a : α} : wp (pure a) Q s ↔ Q (.ok a) s := Iff.rfl

@[simp] theorem wp_fail {e : ε} : wp (fail e) Q s ↔ Q (.error e) s := Iff.rfl

@[simp] theorem wp_lift {r : Except ε α} : wp (lift r) Q s ↔ Q r s := Iff.rfl

@[simp] theorem wp_get {Q : Except ε σ → σ → Prop} : wp get Q s ↔ Q (.ok s) s := Iff.rfl

@[simp] theorem wp_update {g : σ → α × σ} : wp (update g) Q s ↔ Q (.ok (g s).1) (g s).2 := Iff.rfl

@[simp] theorem wp_modify {g : σ → σ} {Q : Except ε Unit → σ → Prop} :
    wp (modify g) Q s ↔ Q (.ok ()) (g s) := Iff.rfl

@[simp] theorem wp_mapErr {g : ε → ε'} {Q : Except ε' α → σ → Prop} :
    wp (mapErr g m) Q s ↔ wp m (fun r s' => Q (r.mapError g) s') s := Iff.rfl

@[simp] theorem wp_attempt {Q : Except ε' (Except ε α) → σ → Prop} :
    wp (attempt m) Q s ↔ wp m (fun r s' => Q (.ok r) s') s := Iff.rfl

@[simp] theorem wp_ignore {Q : Except ε' Unit → σ → Prop} :
    wp (ignore m) Q s ↔ wp m (fun _ s' => Q (.ok ()) s') s := Iff.rfl

@[simp] theorem wp_discard {Q : Except ε Unit → σ → Prop} :
    wp (discard m) Q s ↔ wp m (fun r s' => Q (r.map fun _ => ()) s') s := Iff.rfl

@[simp] theorem wp_zoom {τ : Type} {part : σ → τ} {put : τ → σ → σ} {m : Act τ ε α} :
    wp (zoom part put m) Q s ↔ wp m (fun r t => Q r (put t s)) (part s) := Iff.rfl

/-- What is left to show after the first part of a sequence. -/
def andThen (f : α → Act σ ε β) (R : Except ε β → σ → Prop) (r : Except ε α) (s : σ) : Prop :=
  match r with
  | .ok a => wp (f a) R s
  | .error e => R (.error e) s

@[simp] theorem andThen_ok {a : α} : andThen f R (.ok a) s ↔ wp (f a) R s := Iff.rfl

@[simp] theorem andThen_error {e : ε} : andThen f R (.error e) s ↔ R (.error e) s := Iff.rfl

@[simp] theorem wp_bind : wp (m >>= f) R s ↔ wp m (andThen f R) s := by
  show R (Act.bind m f s).1 (Act.bind m f s).2 ↔ andThen f R (m s).1 (m s).2
  rw [Act.bind]
  split
  · next h => rw [h]; exact Iff.rfl
  · next h => rw [h]; exact Iff.rfl

@[simp] theorem wp_ite {c : Prop} [Decidable c] {m' : Act σ ε α} :
    wp (if c then m else m') Q s ↔ (c → wp m Q s) ∧ (¬c → wp m' Q s) := by
  split <;> simp_all

@[simp] theorem wp_onlyIf {c : Bool} {m : Act σ ε Unit} {Q : Except ε Unit → σ → Prop} :
    wp (onlyIf c m) Q s ↔ (c = true → wp m Q s) ∧ (c = false → Q (.ok ()) s) := by
  cases c <;> simp [onlyIf]

/-- A stronger condition on the result has a stronger precondition. -/
theorem wp_mono (hwp : wp m Q s) (h : ∀ r s', Q r s' → Q' r s') : wp m Q' s := h _ _ hwp

/-- Where the end of an action decides whether it meets a condition. -/
theorem wp_iff {c : Prop} (hwp : wp m Q s) (h : ∀ r s', Q r s' → (Q' r s' ↔ c)) : wp m Q' s ↔ c := h _ _ hwp

private theorem wp_forEach_from {f : α → Act σ ε Unit} {P : List α → σ → Prop} {done l : List α}
    (hstep : ∀ a ∈ l, ∀ done s, P done s → wp (f a) (fun r s' => r = .ok () ∧ P (done ++ [a]) s') s)
    (h : P done s) : wp (forEach f l) (fun r s' => r = .ok () ∧ P (done ++ l) s') s := by
  induction l generalizing done s with
  | nil => simpa [forEach] using h
  | cons a rest ih =>
    unfold forEach
    rw [wp_bind]
    apply wp_mono (hstep a (List.mem_cons_self ..) done s h)
    rintro r s' ⟨rfl, hs'⟩
    have hrest := ih (fun b hb => hstep b (List.mem_cons_of_mem a hb)) hs'
    rw [List.append_assoc] at hrest
    exact hrest

/-- What one pass of the loop establishes for one more element, the loop
establishes for the list. -/
theorem wp_forEach {f : α → Act σ ε Unit} (P : List α → σ → Prop) {l : List α}
    (hstep : ∀ a ∈ l, ∀ done s, P done s → wp (f a) (fun r s' => r = .ok () ∧ P (done ++ [a]) s') s)
    (h : P [] s) : wp (forEach f l) (fun r s' => r = .ok () ∧ P l s') s :=
  wp_forEach_from hstep h

/-! ## Frames -/

/-- Whatever happens, the action leaves the part `f` of the state as it was. -/
def Keeps {π : Type} (f : σ → π) (m : Act σ ε α) : Prop := ∀ s, f (m s).2 = f s

section Keeps

variable {π : Type} {p : σ → π} {m : Act σ ε α} {f : α → Act σ ε β}

theorem keeps_pure {a : α} : Keeps p (pure a : Act σ ε α) := fun _ => rfl

theorem keeps_fail {e : ε} : Keeps p (fail e : Act σ ε α) := fun _ => rfl

theorem keeps_get : Keeps p (get : Act σ ε σ) := fun _ => rfl

theorem keeps_bind (hm : Keeps p m) (hf : ∀ a, Keeps p (f a)) : Keeps p (m >>= f) := by
  intro s
  have h : wp (m >>= f) (fun _ s' => p s' = p s) s := by
    rw [wp_bind]
    apply wp_mono (Q := fun _ s' => p s' = p s) (hm s)
    intro r s' hs'
    cases r with
    | ok a => exact (hf a s').trans hs'
    | error e => exact hs'
  exact h

theorem keeps_mapErr {g : ε → ε'} (hm : Keeps p m) : Keeps p (mapErr g m) := hm

theorem keeps_attempt (hm : Keeps p m) : Keeps p (attempt m : Act σ ε' _) := hm

theorem keeps_ignore (hm : Keeps p m) : Keeps p (ignore m : Act σ ε' _) := hm

theorem keeps_onlyIf {c : Bool} {m : Act σ ε Unit} (hm : Keeps p m) : Keeps p (onlyIf c m) := by
  cases c
  · exact keeps_pure
  · exact hm

theorem keeps_lift {r : Except ε α} : Keeps p (lift r : Act σ ε α) := fun _ => rfl

/-- An action on a part of the state. -/
theorem keeps_zoom {τ : Type} {part : σ → τ} {put : τ → σ → σ} {m : Act τ ε α}
    (h : ∀ s, Keeps (fun t => p (put t s)) m) (hput : ∀ s, p (put (part s) s) = p s) : Keeps p (zoom part put m) :=
  fun s => (h s (part s)).trans (hput s)

theorem keeps_forEach {f : α → Act σ ε Unit} (hf : ∀ a, Keeps p (f a)) (l : List α) :
    Keeps p (forEach f l) := by
  induction l with
  | nil => exact keeps_pure
  | cons a rest ih => exact keeps_bind (hf a) fun _ => ih

end Keeps

/-- Whatever happens, what held of the state before the action holds after it. -/
def Preserves (P : σ → Prop) (m : Act σ ε α) : Prop := ∀ s, P s → P (m s).2

section Preserves

variable {P : σ → Prop} {m : Act σ ε α} {f : α → Act σ ε β}

/-- An action preserves what depends on the part that it leaves alone. -/
theorem Keeps.preserves {π : Type} {p : σ → π} (h : Keeps p m) (hP : ∀ s s', p s' = p s → P s → P s') :
    Preserves P m := fun s => hP s (m s).2 (h s)

theorem preserves_pure {a : α} : Preserves P (pure a : Act σ ε α) := fun _ h => h

theorem preserves_fail {e : ε} : Preserves P (fail e : Act σ ε α) := fun _ h => h

theorem preserves_lift {r : Except ε α} : Preserves P (lift r : Act σ ε α) := fun _ h => h

theorem preserves_get : Preserves P (get : Act σ ε σ) := fun _ h => h

theorem preserves_bind (hm : Preserves P m) (hf : ∀ a, Preserves P (f a)) : Preserves P (m >>= f) := by
  intro s hs
  have h : wp (m >>= f) (fun _ s' => P s') s := by
    rw [wp_bind]
    apply wp_mono (Q := fun _ s' => P s') (hm s hs)
    intro r s' hs'
    cases r with
    | ok a => exact hf a s' hs'
    | error e => exact hs'
  exact h

theorem preserves_mapErr {g : ε → ε'} (hm : Preserves P m) : Preserves P (mapErr g m) := hm

theorem preserves_attempt (hm : Preserves P m) : Preserves P (attempt m : Act σ ε' _) := hm

theorem preserves_ignore (hm : Preserves P m) : Preserves P (ignore m : Act σ ε' _) := hm

theorem preserves_onlyIf {c : Bool} {m : Act σ ε Unit} (hm : Preserves P m) : Preserves P (onlyIf c m) := by
  cases c
  · exact preserves_pure
  · exact hm

theorem preserves_forEach {f : α → Act σ ε Unit} (hf : ∀ a, Preserves P (f a)) (l : List α) :
    Preserves P (forEach f l) := by
  induction l with
  | nil => exact preserves_pure
  | cons a rest ih => exact preserves_bind (hf a) fun _ => ih

end Preserves

/-! ## What an action goes by -/

/-- The result, and what the action makes of the view `p` of the state, depend on the view
alone. -/
def Through {π : Type} (p : σ → π) (m : Act σ ε α) : Prop :=
  ∀ s s', p s = p s' → (m s).1 = (m s').1 ∧ p (m s).2 = p (m s').2

section Through

variable {π : Type} {p : σ → π} {m : Act σ ε α} {f : α → Act σ ε β}

theorem through_pure {a : α} : Through p (pure a : Act σ ε α) := fun _ _ h => ⟨rfl, h⟩

theorem through_fail {e : ε} : Through p (fail e : Act σ ε α) := fun _ _ h => ⟨rfl, h⟩

theorem through_lift {r : Except ε α} : Through p (lift r : Act σ ε α) := fun _ _ h => ⟨rfl, h⟩

theorem through_bind (hm : Through p m) (hf : ∀ a, Through p (f a)) : Through p (m >>= f) := by
  intro s s' h
  obtain ⟨hresult, hview⟩ := hm s s' h
  show (Act.bind m f s).1 = (Act.bind m f s').1 ∧ p (Act.bind m f s).2 = p (Act.bind m f s').2
  unfold Act.bind
  cases hs : m s with
  | mk r t =>
    cases hs' : m s' with
    | mk r' t' =>
      rw [hs, hs'] at hresult hview
      subst hresult
      cases r with
      | ok a => exact hf a t t' hview
      | error e => exact ⟨rfl, hview⟩

/-- What follows may look at the state, as far as the view goes. -/
theorem through_get_bind {f : σ → Act σ ε β} (heq : ∀ s s', p s = p s' → f s = f s')
    (hf : ∀ s, Through p (f s)) : Through p (get >>= f) := by
  intro s s' h
  show (f s s).1 = (f s' s').1 ∧ p (f s s).2 = p (f s' s').2
  rw [← heq s s' h]
  exact hf s s s' h

theorem through_mapErr {g : ε → ε'} (hm : Through p m) : Through p (mapErr g m) := fun s s' h =>
  ⟨congrArg (Except.mapError g) (hm s s' h).1, (hm s s' h).2⟩

theorem through_attempt (hm : Through p m) : Through p (attempt m : Act σ ε' _) := fun s s' h =>
  ⟨congrArg Except.ok (hm s s' h).1, (hm s s' h).2⟩

theorem through_ignore (hm : Through p m) : Through p (ignore m : Act σ ε' _) := fun s s' h =>
  ⟨rfl, (hm s s' h).2⟩

theorem through_discard (hm : Through p m) : Through p (discard m) := fun s s' h =>
  ⟨congrArg (Except.map fun _ => ()) (hm s s' h).1, (hm s s' h).2⟩

theorem through_onlyIf {c : Bool} {m : Act σ ε Unit} (hm : Through p m) : Through p (onlyIf c m) := by
  cases c
  · exact through_pure
  · exact hm

theorem through_forEach {f : α → Act σ ε Unit} (hf : ∀ a, Through p (f a)) (l : List α) :
    Through p (forEach f l) := by
  induction l with
  | nil => exact through_pure
  | cons a rest ih => exact through_bind (hf a) fun _ => ih

end Through

/-! ## Two actions -/

/-- The two leave the same state. -/
def Leaves {ε ε' α β : Type} (m : Act σ ε α) (m' : Act σ ε' β) : Prop := ∀ s, (m s).2 = (m' s).2

/-- The two leave the same state, and give the same value or both fail. -/
structure Alike {ε ε' α : Type} (m : Act σ ε α) (m' : Act σ ε' α) : Prop where
  leaves : Leaves m m'
  value : ∀ s, (m s).1.toOption = (m' s).1.toOption

section Alike

variable {ε'' β' : Type} {m : Act σ ε α} {m' : Act σ ε' α} {f : α → Act σ ε β} {f' : α → Act σ ε' β'}

theorem alike_refl (m : Act σ ε α) : Alike m m := ⟨fun _ => rfl, fun _ => rfl⟩

theorem Alike.mapErr_left {g : ε → ε''} (h : Alike m m') : Alike (mapErr g m) m' where
  leaves := h.leaves
  value s := by
    rw [← h.value s, mapErr_run]
    cases (m s).1 <;> rfl

theorem Alike.mapErr_right {g : ε' → ε''} (h : Alike m m') : Alike m (mapErr g m') where
  leaves := h.leaves
  value s := by
    rw [h.value s, mapErr_run]
    cases (m' s).1 <;> rfl

theorem leaves_ignore : Leaves (ignore m : Act σ ε'' Unit) m := fun _ => rfl

/-- Sequences whose first parts are alike leave the same state if their second parts do. -/
theorem Alike.leaves_bind (hm : Alike m m') (hf : ∀ a, Leaves (f a) (f' a)) : Leaves (m >>= f) (m' >>= f') := by
  intro s
  have hstate := hm.leaves s
  have hvalue := hm.value s
  show (Act.bind m f s).2 = (Act.bind m' f' s).2
  unfold Act.bind
  cases hrun : m s with
  | mk r t =>
    cases hrun' : m' s with
    | mk r' t' =>
      rw [hrun, hrun'] at hstate hvalue
      obtain rfl : t = t' := hstate
      cases r with
      | error e =>
        cases r' with
        | error e' => rfl
        | ok a' => cases hvalue
      | ok a =>
        cases r' with
        | error e' => cases hvalue
        | ok a' =>
          obtain rfl : a = a' := Option.some.inj hvalue
          exact hf a t

/-- What only looks at the state may follow on the other side. -/
theorem leaves_bind_right {m : Act σ ε β} {n : Act σ ε' α} {g : α → Act σ ε' β'} (h : Leaves m n)
    (hg : ∀ a s, (g a s).2 = s) : Leaves m (n >>= g) := by
  intro s
  rw [h s]
  show (n s).2 = (Act.bind n g s).2
  unfold Act.bind
  cases n s with
  | mk r t =>
    cases r with
    | error e => rfl
    | ok a => exact (hg a t).symm

theorem leaves_zoom {τ : Type} {part : σ → τ} {put : τ → σ → σ} {m : Act τ ε α} {m' : Act τ ε' β} (h : Leaves m m') :
    Leaves (zoom part put m) (zoom part put m') := by
  intro s
  show put (m (part s)).2 s = put (m' (part s)).2 s
  rw [h]

theorem Alike.zoom {τ : Type} {part : σ → τ} {put : τ → σ → σ} {m : Act τ ε α} {m' : Act τ ε' α} (h : Alike m m') :
    Alike (zoom part put m) (zoom part put m') :=
  ⟨leaves_zoom h.leaves, fun s => h.value (part s)⟩

end Alike

/-! ## Records -/

/-- With what `forget` takes away forgotten, the first action does what the second one does. -/
def Erases {σ' : Type} (forget : σ' → σ) (m' : Act σ' ε α) (m : Act σ ε α) : Prop :=
  ∀ s, m (forget s) = ((m' s).1, forget (m' s).2)

section Erases

variable {σ' : Type} {forget : σ' → σ} {m' : Act σ' ε α} {m : Act σ ε α}
variable {f' : α → Act σ' ε β} {f : α → Act σ ε β}

theorem erases_pure {a : α} : Erases forget (pure a) (pure a : Act σ ε α) := fun _ => rfl

theorem erases_fail {e : ε} : Erases forget (fail e) (fail e : Act σ ε α) := fun _ => rfl

theorem erases_bind (hm : Erases forget m' m) (hf : ∀ a, Erases forget (f' a) (f a)) :
    Erases forget (m' >>= f') (m >>= f) := by
  intro s
  show Act.bind m f (forget s) = ((Act.bind m' f' s).1, forget (Act.bind m' f' s).2)
  unfold Act.bind
  rw [hm s]
  cases m' s with
  | mk r t =>
    cases r with
    | ok a => exact hf a t
    | error e => rfl

theorem erases_lift {r : Except ε α} : Erases forget (lift r) (lift r : Act σ ε α) := fun _ => rfl

/-- What follows looks at the state with and without the record. -/
theorem erases_get_bind {f' : σ' → Act σ' ε β} {f : σ → Act σ ε β} (hf : ∀ s, Erases forget (f' s) (f (forget s))) :
    Erases forget (get >>= f') (get >>= f) := fun s => hf s s

theorem erases_mapErr {g : ε → ε'} (hm : Erases forget m' m) : Erases forget (mapErr g m') (mapErr g m) := by
  intro s
  rw [mapErr_run, mapErr_run, hm s]

theorem erases_attempt (hm : Erases forget m' m) : Erases forget (attempt m' : Act σ' ε' _) (attempt m) := by
  intro s
  rw [attempt_run, attempt_run, hm s]

theorem erases_ignore (hm : Erases forget m' m) : Erases forget (ignore m' : Act σ' ε' Unit) (ignore m) := by
  intro s
  unfold ignore
  rw [hm s]

theorem erases_discard (hm : Erases forget m' m) : Erases forget (discard m') (discard m) := by
  intro s
  unfold discard
  rw [hm s]

theorem erases_onlyIf {c : Bool} {m' : Act σ' ε Unit} {m : Act σ ε Unit} (hm : Erases forget m' m) :
    Erases forget (onlyIf c m') (onlyIf c m) := by
  cases c
  · exact erases_pure
  · exact hm

theorem erases_forEach {f' : α → Act σ' ε Unit} {f : α → Act σ ε Unit} (hf : ∀ a, Erases forget (f' a) (f a))
    (l : List α) : Erases forget (forEach f' l) (forEach f l) := by
  induction l with
  | nil => exact erases_pure
  | cons a rest ih => exact erases_bind (hf a) fun _ => ih

end Erases

end Act
