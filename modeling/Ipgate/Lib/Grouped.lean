-- SUMMARY: Values grouped by their key, in the order of the keys: what an ordered map of lists holds.
import Mathlib.Order.Lattice

/-!
# Grouped values

Pairs of a key and a value are put into an ordered map one by one, each value behind those that its key
has already. In the end every key has its values in the order in which they came, and the keys are in
their own order.
-/

namespace Grouped

variable {κ α : Type} [LinearOrder κ] {k k' : κ} {a : α} {vs : List α} {m : List (κ × List α)} {ps : List (κ × α)}

/-- Put a value behind those of its key, and the key where it belongs if it is new. -/
def push (k : κ) (a : α) : List (κ × List α) → List (κ × List α)
  | [] => [(k, [a])]
  | (k', vs) :: m =>
    if k < k' then (k, [a]) :: (k', vs) :: m
    else if k = k' then (k', vs ++ [a]) :: m
    else (k', vs) :: push k a m

def group (ps : List (κ × α)) : List (κ × List α) := ps.foldl (fun m p => push p.1 p.2 m) []

/-- The values of a key, in their order. -/
def valuesOf (k : κ) (ps : List (κ × α)) : List α := (ps.filter (·.1 = k)).map Prod.snd

/-- No key twice, and each in front of the greater ones. -/
def Sorted (m : List (κ × List α)) : Prop := m.Pairwise (·.1 < ·.1)

theorem valuesOf_concat (k' : κ) : valuesOf k' (ps ++ [(k, a)]) = valuesOf k' ps ++ if k = k' then [a] else [] := by
  unfold valuesOf
  rw [List.filter_append, List.map_append]
  split
  · next heq => simp [heq]
  · next hne => simp [hne]

/-! ## One value -/

/-- The key of a new value comes in front of the keys that are greater than it. -/
theorem lt_of_mem_push {k₀ : κ} (hk : k₀ < k) (hm : ∀ e ∈ m, k₀ < e.1) : ∀ e ∈ push k a m, k₀ < e.1 := by
  induction m with
  | nil =>
    intro e he
    rw [List.mem_singleton.mp he]
    exact hk
  | cons e₀ m ih =>
    obtain ⟨hhead, htail⟩ := List.forall_mem_cons.mp hm
    unfold push
    split
    · exact List.forall_mem_cons.mpr ⟨hk, hm⟩
    · split
      · exact List.forall_mem_cons.mpr ⟨hhead, htail⟩
      · exact List.forall_mem_cons.mpr ⟨hhead, ih htail⟩

theorem Sorted.push (hm : Sorted m) : Sorted (push k a m) := by
  induction m with
  | nil => exact List.pairwise_singleton _ _
  | cons e m ih =>
    obtain ⟨hhead, htail⟩ := List.pairwise_cons.mp hm
    unfold Grouped.push
    split
    · next hlt =>
      have hbefore : ∀ e' ∈ m, k < e'.1 := fun e' he' => hlt.trans (hhead e' he')
      exact List.pairwise_cons.mpr ⟨List.forall_mem_cons.mpr ⟨hlt, hbefore⟩, hm⟩
    · next hle =>
      split
      · exact List.pairwise_cons.mpr ⟨hhead, htail⟩
      · next hne =>
        have hlt : e.1 < k := lt_of_le_of_ne (not_lt.mp hle) (Ne.symm hne)
        exact List.pairwise_cons.mpr ⟨lt_of_mem_push hlt hhead, ih htail⟩

/-- What the other keys have stays. -/
theorem mem_push_of_ne (hne : k' ≠ k) : (k', vs) ∈ push k a m ↔ (k', vs) ∈ m := by
  induction m with
  | nil => simp [push, hne]
  | cons e m ih =>
    obtain ⟨k₀, us⟩ := e
    unfold push
    split
    · simp [hne]
    · split
      · next heq =>
        have hother : k' ≠ k₀ := heq ▸ hne
        simp [hother]
      · rw [List.mem_cons, List.mem_cons, ih]

/-- The key itself has the new value behind those it had, if any. -/
theorem mem_push_self (hm : Sorted m) : (k, vs) ∈ push k a m ↔
    (∃ us, (k, us) ∈ m ∧ vs = us ++ [a]) ∨ (∀ us, (k, us) ∉ m) ∧ vs = [a] := by
  induction m with
  | nil => simp [push]
  | cons e m ih =>
    obtain ⟨hhead, htail⟩ := List.pairwise_cons.mp hm
    obtain ⟨k₀, ws⟩ := e
    have hbehind (hle : k ≤ k₀) (us : List α) : (k, us) ∉ m := fun hmem => (hhead _ hmem).not_ge hle
    unfold push
    split
    · next hlt =>
      have hnone (us : List α) : (k, us) ∉ (k₀, ws) :: m := by
        rw [List.mem_cons, not_or]
        exact ⟨fun heq => hlt.ne (congrArg Prod.fst heq), hbehind hlt.le us⟩
      have hin : (k, vs) ∈ (k, [a]) :: (k₀, ws) :: m ↔ vs = [a] := by
        rw [List.mem_cons, or_iff_left (hnone vs), Prod.mk.injEq, and_iff_right rfl]
      rw [hin]
      exact ⟨fun heq => .inr ⟨hnone, heq⟩, fun h => h.elim (fun ⟨us, hus, _⟩ => (hnone us hus).elim) And.right⟩
    · split
      · next heq =>
        subst heq
        simp [hbehind le_rfl]
      · next hne => simpa [hne] using ih htail

/-! ## All values -/

/-- The map after some of the pairs. -/
def Holds (m : List (κ × List α)) (ps : List (κ × α)) : Prop :=
  Sorted m ∧ ∀ k vs, (k, vs) ∈ m ↔ vs = valuesOf k ps ∧ vs ≠ []

theorem Holds.push (h : Holds m ps) : Holds (push k a m) (ps ++ [(k, a)]) := by
  refine ⟨h.1.push, fun k' vs => ?_⟩
  rw [valuesOf_concat]
  by_cases hk : k' = k
  · subst hk
    rw [mem_push_self h.1, if_pos rfl]
    simp only [h.2]
    by_cases hold : valuesOf k' ps = []
    · simp +contextual [hold]
    · constructor
      · rintro (⟨us, ⟨rfl, -⟩, rfl⟩ | ⟨hnone, -⟩)
        · exact ⟨rfl, by simp⟩
        · exact (hnone _ ⟨rfl, hold⟩).elim
      · exact fun ⟨heq, _⟩ => .inl ⟨_, ⟨rfl, hold⟩, heq⟩
  · rw [mem_push_of_ne hk, h.2, if_neg (Ne.symm hk), List.append_nil]

theorem Holds.foldl {qs : List (κ × α)} (h : Holds m ps) :
    Holds (qs.foldl (fun m p => Grouped.push p.1 p.2 m) m) (ps ++ qs) := by
  induction qs generalizing m ps with
  | nil => rwa [List.append_nil]
  | cons q qs ih =>
    rw [List.foldl_cons, List.append_cons]
    exact ih h.push

theorem holds_group (ps : List (κ × α)) : Holds (group ps) ps := by
  have hnil : Holds (α := α) (κ := κ) [] [] := ⟨List.Pairwise.nil, fun k vs => by simp [valuesOf]⟩
  exact hnil.foldl

theorem sorted_group (ps : List (κ × α)) : Sorted (group ps) := (holds_group ps).1

/-- Every key that came has its values. -/
theorem mem_group : (k, vs) ∈ group ps ↔ vs = valuesOf k ps ∧ vs ≠ [] := (holds_group ps).2 k vs

/-- A key is found with its values. -/
theorem find_group : ((group ps).find? (·.1 = k)).elim [] Prod.snd = valuesOf k ps := by
  cases hfind : (group ps).find? (·.1 = k) with
  | none =>
    rw [List.find?_eq_none] at hfind
    by_contra hne
    exact hfind _ (mem_group.mpr ⟨rfl, Ne.symm hne⟩) (decide_eq_true rfl)
  | some e =>
    have hkey : e.1 = k := by simpa using List.find?_some hfind
    subst hkey
    exact (mem_group.mp (List.mem_of_find?_eq_some hfind)).1

end Grouped
