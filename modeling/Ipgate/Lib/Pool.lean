-- SUMMARY: Pools of processes in a list: starting one, moving one on, and what stays true of the others.
import Mathlib.Data.List.Basic

/-!
# Pools

The processes of a concurrent system stand in a list and are known by their
position. A process is started at the end of the list, and a step replaces one
process by its successor. Whatever is asked of the processes is therefore asked
of the old ones and of the one that was moved.
-/

namespace Pool

variable {α : Type*} {R : α → α → Prop} {pool pool' pool'' : List α} {i j : ℕ} {a a' b : α}

theorem getElem?_start (h : (pool ++ [a])[j]? = some b) : pool[j]? = some b ∨ j = pool.length ∧ b = a := by
  rw [List.getElem?_append] at h
  split at h
  · exact .inl h
  · next hlt =>
    obtain ⟨hzero, hb⟩ : j - pool.length = 0 ∧ a = b := by
      simpa [List.getElem?_singleton] using h
    exact .inr ⟨by omega, hb.symm⟩

theorem mem_move (h : b ∈ pool.set i a') : b ∈ pool ∨ b = a' := List.mem_or_eq_of_mem_set h

/-- A process of the pool is an old one, or the one that was moved on in place. -/
theorem getElem?_modify {f : α → α} (h : (pool.modify i f)[j]? = some b) :
    pool[j]? = some b ∨ j = i ∧ ∃ a, pool[i]? = some a ∧ b = f a := by
  rw [List.getElem?_modify] at h
  obtain ⟨a, ha, rfl⟩ := Option.map_eq_some_iff.mp h
  by_cases hij : i = j
  · subst hij
    exact .inr ⟨rfl, a, ha, by simp⟩
  · exact .inl (by simpa [hij] using ha)

theorem mem_modify {f : α → α} (h : b ∈ pool.modify i f) : b ∈ pool ∨ ∃ a, pool[i]? = some a ∧ b = f a := by
  obtain ⟨j, hj⟩ := List.mem_iff_getElem?.mp h
  rcases getElem?_modify hj with hold | ⟨-, hnew⟩
  · exact .inl (List.mem_iff_getElem?.mpr ⟨j, hold⟩)
  · exact .inr hnew

theorem getElem?_modified {f : α → α} (h : pool[i]? = some a) : (pool.modify i f)[i]? = some (f a) := by
  simp [h]

theorem getElem?_unmodified {f : α → α} (hij : i ≠ j) : (pool.modify i f)[j]? = pool[j]? := by
  simp [hij]

theorem getElem?_moved (h : pool[i]? = some a) : (pool.set i a')[i]? = some a' := by
  obtain ⟨hlt, -⟩ := List.getElem?_eq_some_iff.mp h
  simp [hlt]

theorem getElem?_started : (pool ++ [a])[pool.length]? = some a := by simp

/-- Every process of the first pool is in the second, moved on by `R` at most. -/
def Grows (R : α → α → Prop) (pool pool' : List α) : Prop :=
  ∀ (i : ℕ) (a : α), pool[i]? = some a → ∃ a', pool'[i]? = some a' ∧ R a a'

theorem Grows.refl (hR : ∀ a, R a a) (pool : List α) : Grows R pool pool :=
  fun _ a ha => ⟨a, ha, hR a⟩

theorem grows_start (hR : ∀ a, R a a) : Grows R pool (pool ++ [b]) := by
  intro i a ha
  obtain ⟨hlt, -⟩ := List.getElem?_eq_some_iff.mp ha
  exact ⟨a, by rw [List.getElem?_append_left hlt, ha], hR a⟩

theorem grows_move (hR : ∀ a, R a a) (hi : pool[i]? = some a) (h : R a a') :
    Grows R pool (pool.set i a') := by
  intro j b hb
  by_cases hij : i = j
  · subst hij
    obtain rfl : a = b := Option.some.inj (hi.symm.trans hb)
    exact ⟨a', getElem?_moved hi, h⟩
  · exact ⟨b, by rw [List.getElem?_set_ne hij, hb], hR b⟩

end Pool
