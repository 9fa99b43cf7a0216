-- SUMMARY: Fixed-window counters: one counter for each source, what is granted within a window, and sources do not meet.
import Mathlib.Data.List.Induction
import Mathlib.Logic.Function.Basic

/-!
# Fixed-window counters

Calls come from sources at times that do not go back. A source's window starts with a call and takes
in the calls made before it is over; the first call after that starts the next window. A call is granted
while the window's count is at most the maximum.
-/

namespace FixedWindow

/-- When the window started, and the calls counted in it. -/
structure Window where
  start : ℕ
  count : ℕ
deriving DecidableEq

/-- Count a call. A window that is over gives way to a new one. -/
def tick (window now : ℕ) : Option Window → Window
  | none => ⟨now, 1⟩
  | some w => if w.start + window ≤ now then ⟨now, 1⟩ else ⟨w.start, w.count + 1⟩

variable {κ : Type} {max window : ℕ} {calls pre post : List (κ × ℕ)} {k j : κ} {s t : ℕ} {w : Window}
variable {p : κ × ℕ → Bool} {as bs : List Bool} {a : Bool}

theorem count_tick_le {n : ℕ} {o : Option Window} (h : ∀ w, o = some w → w.count ≤ n) :
    (tick window t o).count ≤ n + 1 := by
  cases o with
  | none => exact Nat.le_add_left 1 n
  | some w =>
    unfold tick
    dsimp only
    split
    · exact Nat.le_add_left 1 n
    · exact Nat.succ_le_succ (h w rfl)

/-- The answers to the calls that `p` picks out. -/
def answersTo (p : κ × ℕ → Bool) (calls : List (κ × ℕ)) (as : List Bool) : List Bool :=
  ((calls.zip as).filter fun x => p x.1).map Prod.snd

/-- The calls of one source made in `[s, e)`. -/
def within [DecidableEq κ] (k : κ) (s e : ℕ) (call : κ × ℕ) : Bool :=
  decide (call.1 = k ∧ s ≤ call.2 ∧ call.2 < e)

/-- Time does not go back. -/
def InOrder (calls : List (κ × ℕ)) : Prop := calls.Pairwise fun c d => c.2 ≤ d.2

theorem answersTo_cons_pos {c : κ × ℕ} (h : p c = true) :
    answersTo p (c :: calls) (a :: as) = a :: answersTo p calls as := by
  unfold answersTo
  rw [List.zip_cons_cons, List.filter_cons_of_pos (by simpa using h), List.map_cons]

theorem answersTo_cons_neg {c : κ × ℕ} (h : p c = false) :
    answersTo p (c :: calls) (a :: as) = answersTo p calls as := by
  unfold answersTo
  rw [List.zip_cons_cons, List.filter_cons_of_neg (by simp [h])]

theorem answersTo_append (h : pre.length = as.length) :
    answersTo p (pre ++ post) (as ++ bs) = answersTo p pre as ++ answersTo p post bs := by
  unfold answersTo
  rw [List.zip_append h, List.filter_append, List.map_append]

theorem answersTo_map : answersTo p calls (calls.map fun _ => a) = (calls.filter p).map fun _ => a := by
  induction calls with
  | nil => rfl
  | cons c rest ih =>
    rw [List.map_cons]
    cases h : p c with
    | false => rw [answersTo_cons_neg h, List.filter_cons_of_neg (by simp [h]), ih]
    | true => rw [answersTo_cons_pos h, List.filter_cons_of_pos h, List.map_cons, ih]

theorem answersTo_eq_nil (h : ∀ c ∈ calls, p c = false) : answersTo p calls as = [] := by
  unfold answersTo
  rw [List.map_eq_nil_iff, List.filter_eq_nil_iff]
  intro x hx
  simp [h x.1 (List.of_mem_zip hx).1]

/-- The answers to a source's window so far: its first calls are granted. -/
def granted (max n : ℕ) : List Bool := (List.range n).map fun i => decide (i < max)

theorem granted_succ (max n : ℕ) : granted max (n + 1) = granted max n ++ [decide (n + 1 ≤ max)] := by
  unfold granted
  rw [List.range_succ, List.map_append]
  rfl

theorem count_granted_le (max n : ℕ) : (granted max n).count true ≤ max := by
  have hle : (granted max n).count true ≤ min n max := by
    induction n with
    | zero => exact Nat.zero_le _
    | succ n ih =>
      rw [granted_succ, List.count_append, List.count_singleton]
      by_cases hlt : n + 1 ≤ max
      · rw [decide_eq_true hlt, if_pos (by decide)]
        omega
      · rw [decide_eq_false hlt, if_neg (by decide)]
        omega
  exact Nat.le_trans hle (Nat.min_le_right ..)

theorem mem_take_granted {n : ℕ} (h : a ∈ (granted max n).take max) : a = true := by
  unfold granted at h
  rw [← List.map_take, List.take_range] at h
  obtain ⟨i, hi, rfl⟩ := List.mem_map.mp h
  exact decide_eq_true (Nat.lt_of_lt_of_le (List.mem_range.mp hi) (Nat.min_le_left ..))

section Counters

variable [DecidableEq κ] {c c' : κ → Option Window}

/-- A call counts for its source. -/
def call (window : ℕ) (c : κ → Option Window) (x : κ × ℕ) : κ → Option Window :=
  Function.update c x.1 (some (tick window x.2 (c x.1)))

theorem call_self : call window c (k, t) k = some (tick window t (c k)) := Function.update_self ..

theorem call_of_ne (h : k ≠ j) : call window c (j, t) k = c k := Function.update_of_ne h ..

/-- The counters after the calls. -/
def after (window : ℕ) (c : κ → Option Window) (calls : List (κ × ℕ)) : κ → Option Window :=
  calls.foldl (call window) c

/-- Is each of the calls granted? -/
def answers (max window : ℕ) (c : κ → Option Window) : List (κ × ℕ) → List Bool
  | [] => []
  | x :: rest => decide ((tick window x.2 (c x.1)).count ≤ max) :: answers max window (call window c x) rest

theorem answers_cons {x : κ × ℕ} : answers max window c (x :: calls) =
    decide ((tick window x.2 (c x.1)).count ≤ max) :: answers max window (call window c x) calls := rfl

theorem length_answers : (answers max window c calls).length = calls.length := by
  induction calls generalizing c with
  | nil => rfl
  | cons x rest ih => rw [answers_cons, List.length_cons, List.length_cons, ih]

theorem answers_append :
    answers max window c (pre ++ post) = answers max window c pre ++ answers max window (after window c pre) post := by
  induction pre generalizing c with
  | nil => rfl
  | cons x rest ih => rw [List.cons_append, answers, answers, ih, List.cons_append, after, after, List.foldl_cons]

theorem after_snoc {x : κ × ℕ} : after window c (calls ++ [x]) = call window (after window c calls) x :=
  List.foldl_append

/-- The answers to one source are those it gets alone. -/
theorem answersTo_source (h : c k = c' k) :
    answersTo (fun x => decide (x.1 = k)) calls (answers max window c calls) =
      answers max window c' (calls.filter fun x => decide (x.1 = k)) := by
  induction calls generalizing c c' with
  | nil => rfl
  | cons x rest ih =>
    obtain ⟨j, t⟩ := x
    rw [answers_cons]
    by_cases hj : j = k
    · subst hj
      have hnext : call window c (j, t) j = call window c' (j, t) j := by rw [call_self, call_self, h]
      rw [answersTo_cons_pos (decide_eq_true rfl), List.filter_cons_of_pos (by simp), ih hnext, answers_cons]
      dsimp only
      rw [h]
    · have hnext : call window c (j, t) k = c' k := by rw [call_of_ne (Ne.symm hj), h]
      rw [answersTo_cons_neg (decide_eq_false hj), List.filter_cons_of_neg (by simpa using hj), ih hnext]

/-! ## What a window grants -/

/-- What is known of a source's window after calls that do not go back in time. -/
structure Counted (max window : ℕ) (k : κ) (calls : List (κ × ℕ)) (w : Window) : Prop where
  started : (k, w.start) ∈ calls
  before : ∀ t, (k, t) ∈ calls → t < w.start + window
  answered : answersTo (within k w.start (w.start + window)) calls (answers max window (fun _ => none) calls) =
    granted max w.count

/-- What is known of a source's counter: it has no window before its first call. -/
def Known (max window : ℕ) (k : κ) (calls : List (κ × ℕ)) : Option Window → Prop
  | none => ∀ t, (k, t) ∉ calls
  | some w => Counted max window k calls w

theorem answers_snoc {x : κ × ℕ} : answers max window c (calls ++ [x]) =
    answers max window c calls ++ [decide ((tick window x.2 (after window c calls x.1)).count ≤ max)] := by
  rw [answers_append]
  rfl

theorem answersTo_snoc_neg {x : κ × ℕ} (h : p x = false) :
    answersTo p (calls ++ [x]) (answers max window c (calls ++ [x])) = answersTo p calls (answers max window c calls) := by
  rw [answers_snoc, answersTo_append length_answers.symm, answersTo_cons_neg h]
  exact List.append_nil _

theorem answersTo_snoc_pos {x : κ × ℕ} (h : p x = true) :
    answersTo p (calls ++ [x]) (answers max window c (calls ++ [x])) =
      answersTo p calls (answers max window c calls) ++
        [decide ((tick window x.2 (after window c calls x.1)).count ≤ max)] := by
  rw [answers_snoc, answersTo_append length_answers.symm, answersTo_cons_pos h]
  rfl

/-- A call of another source tells nothing. -/
theorem Known.other {o : Option Window} (h : Known max window k calls o) (hne : k ≠ j) :
    Known max window k (calls ++ [(j, t)]) o := by
  have hmem : ∀ u, (k, u) ∈ calls ++ [(j, t)] → (k, u) ∈ calls := by
    intro u hu
    cases List.mem_append.mp hu with
    | inl hold => exact hold
    | inr hnew => exact absurd (congrArg Prod.fst (List.mem_singleton.mp hnew)) hne
  cases o with
  | none => exact fun u hu => h u (hmem u hu)
  | some w =>
    refine ⟨List.mem_append_left _ h.started, fun u hu => h.before u (hmem u hu), ?_⟩
    rw [answersTo_snoc_neg (decide_eq_false fun hin => hne hin.1.symm)]
    exact h.answered

/-- A call of its own counts in the window, or starts one. -/
theorem Known.own {o : Option Window} (h : Known max window k calls o) (hafter : after window (fun _ => none) calls k = o)
    (horder : ∀ u, (k, u) ∈ calls → u ≤ t) (hwindow : 0 < window) :
    Counted max window k (calls ++ [(k, t)]) (tick window t o) := by
  -- a window that starts with this call: no call before it is in it
  have hfresh (hnone : ∀ u, (k, u) ∈ calls → u < t) (htick : tick window t o = ⟨t, 1⟩) :
      Counted max window k (calls ++ [(k, t)]) (tick window t o) := by
    have hempty : answersTo (within k t (t + window)) calls (answers max window (fun _ => none) calls) = [] := by
      refine answersTo_eq_nil fun x hx => decide_eq_false fun hin => ?_
      obtain ⟨rfl, hle, -⟩ := hin
      exact absurd (hnone x.2 hx) (Nat.not_lt.mpr hle)
    rw [htick]
    refine ⟨List.mem_append_right _ (List.mem_singleton.mpr rfl), fun u hu => ?_, ?_⟩
    · cases List.mem_append.mp hu with
      | inl hold => exact Nat.lt_of_lt_of_le (hnone u hold) (Nat.le_add_right ..)
      | inr hnew =>
        obtain rfl : u = t := congrArg Prod.snd (List.mem_singleton.mp hnew)
        exact Nat.lt_add_of_pos_right hwindow
    · rw [answersTo_snoc_pos (decide_eq_true ⟨rfl, Nat.le_refl t, Nat.lt_add_of_pos_right hwindow⟩)]
      dsimp only
      rw [hempty, hafter, htick]
      rfl
  cases o with
  | none => exact hfresh (fun u hu => absurd hu (h u)) rfl
  | some w =>
    by_cases hover : w.start + window ≤ t
    · exact hfresh (fun u hu => Nat.lt_of_lt_of_le (h.before u hu) hover) (if_pos hover)
    · have htick : tick window t (some w) = ⟨w.start, w.count + 1⟩ := if_neg hover
      have hlt : t < w.start + window := Nat.not_le.mp hover
      rw [htick]
      refine ⟨List.mem_append_left _ h.started, fun u hu => ?_, ?_⟩
      · cases List.mem_append.mp hu with
        | inl hold => exact h.before u hold
        | inr hnew =>
          obtain rfl : u = t := congrArg Prod.snd (List.mem_singleton.mp hnew)
          exact hlt
      · rw [answersTo_snoc_pos (decide_eq_true ⟨rfl, horder _ h.started, hlt⟩), h.answered]
        dsimp only
        rw [hafter, htick, granted_succ]

theorem known_after (horder : InOrder calls) (hwindow : 0 < window) :
    Known max window k calls (after window (fun _ => none) calls k) := by
  induction calls using List.reverseRecOn with
  | nil => exact fun t => List.not_mem_nil
  | append_singleton calls x ih =>
    obtain ⟨j, t⟩ := x
    obtain ⟨hcalls, -, hlast⟩ := List.pairwise_append.mp horder
    rw [after_snoc]
    by_cases hj : k = j
    · subst hj
      rw [call_self]
      exact (ih hcalls).own rfl (fun u hu => hlast _ hu _ (List.mem_singleton.mpr rfl)) hwindow
    · rw [call_of_ne hj]
      exact (ih hcalls).other hj

/-- From a state in a window, the calls before its end are counted on. -/
theorem answersTo_rest (hw : c k = some w) (hstart : ∀ t, (k, t) ∈ calls → w.start ≤ t) (horder : InOrder calls) :
    ∃ n, granted max w.count ++ answersTo (within k w.start (w.start + window)) calls (answers max window c calls) =
      granted max n := by
  induction calls generalizing c w with
  | nil => exact ⟨w.count, List.append_nil _⟩
  | cons x rest ih =>
    obtain ⟨j, t⟩ := x
    obtain ⟨hfirst, hrest⟩ := List.pairwise_cons.mp horder
    have hstart' : ∀ u, (k, u) ∈ rest → w.start ≤ u := fun u hu => hstart u (List.mem_cons_of_mem _ hu)
    rw [answers_cons]
    by_cases hj : k = j
    · subst hj
      by_cases hover : w.start + window ≤ t
      · -- what follows is no earlier than this call
        refine ⟨w.count, ?_⟩
        rw [answersTo_eq_nil, List.append_nil]
        intro y hy
        refine decide_eq_false fun hin => absurd hin.2.2 (Nat.not_lt.mpr (Nat.le_trans hover ?_))
        cases List.mem_cons.mp hy with
        | inl heq => exact heq ▸ Nat.le_refl _
        | inr hy => exact hfirst y hy
      · have htick : tick window t (c k) = ⟨w.start, w.count + 1⟩ := by rw [hw]; exact if_neg hover
        have hnext : call window c (k, t) k = some ⟨w.start, w.count + 1⟩ := by rw [call_self, htick]
        obtain ⟨n, hn⟩ := ih hnext hstart' hrest
        refine ⟨n, ?_⟩
        have hin : within k w.start (w.start + window) (k, t) = true :=
          decide_eq_true ⟨rfl, hstart t (List.mem_cons_self ..), Nat.not_le.mp hover⟩
        rw [answersTo_cons_pos hin]
        dsimp only
        rw [htick, List.append_cons, ← granted_succ]
        exact hn
    · have hnext : call window c (j, t) k = some w := by rw [call_of_ne hj, hw]
      rw [answersTo_cons_neg (decide_eq_false fun hin => hj hin.1.symm)]
      exact ih hnext hstart' hrest

/-- The answers given in a window: its first calls are granted, and no other. -/
theorem answersTo_window (horder : InOrder (pre ++ post)) (hwindow : 0 < window)
    (hw : after window (fun _ => none) pre k = some w) :
    ∃ n, answersTo (within k w.start (w.start + window)) (pre ++ post)
      (answers max window (fun _ => none) (pre ++ post)) = granted max n := by
  obtain ⟨hpre, hpost, hacross⟩ := List.pairwise_append.mp horder
  have hknown : Known max window k pre (after window (fun _ => none) pre k) := known_after hpre hwindow
  rw [hw] at hknown
  rw [answers_append, answersTo_append length_answers.symm, hknown.answered]
  exact answersTo_rest hw (fun t ht => hacross _ hknown.started _ ht) hpost

end Counters

end FixedWindow
