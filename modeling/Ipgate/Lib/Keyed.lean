-- SUMMARY: Lists whose items are told apart by a key: what filters, insertions and changes in place do to them.
import Mathlib.Data.List.Nodup

/-!
# Keyed lists

Items of a list are found, removed and changed by a key. Where no two items have the same key,
each of these concerns one item.
-/

namespace Keyed

variable {α β κ : Type} {key : α → κ} {k : κ} {f : α → α} {p : α → Bool} {l : List α} {x y : α}

/-- No two items have the same key. -/
def Apart (key : α → κ) (l : List α) : Prop := (l.map key).Nodup

theorem apart_nil : Apart key [] := List.nodup_nil

theorem Apart.filter (h : Apart key l) (p : α → Bool) : Apart key (l.filter p) := h.sublist (List.filter_sublist.map _)

/-- An item with another key can be added. -/
theorem Apart.concat (h : Apart key l) (hnew : ∀ y ∈ l, key y ≠ key x) : Apart key (l ++ [x]) := by
  unfold Apart
  rw [List.map_append]
  refine List.nodup_append.mpr ⟨h, List.nodup_singleton _, ?_⟩
  intro i hi j hj heq
  obtain ⟨y, hy, rfl⟩ := List.mem_map.mp hi
  exact hnew y hy (heq.trans (List.mem_singleton.mp hj))

theorem Apart.eq (h : Apart key l) (hx : x ∈ l) (hy : y ∈ l) (hkey : key x = key y) : x = y :=
  List.inj_on_of_nodup_map h hx hy hkey

/-- A filter does not see what a weaker filter has taken away before. -/
theorem filter_filter_of_imp {q : α → Bool} (h : ∀ x ∈ l, q x = true → p x = true) :
    (l.filter p).filter q = l.filter q := by
  rw [List.filter_filter]
  refine List.filter_congr fun x hx => ?_
  cases hq : q x with
  | false => rfl
  | true => rw [h x hx hq, Bool.true_and]

theorem filter_concat (h : p x = false) : (l ++ [x]).filter p = l.filter p := by
  rw [List.filter_append, List.filter_cons_of_neg (by simp [h]), List.filter_nil, List.append_nil]

section Decided

variable [DecidableEq κ]

/-- An item is found by its key. -/
theorem Apart.find (h : Apart key l) (hx : x ∈ l) (hp : ∀ y, p y = decide (key y = key x)) : l.find? p = some x := by
  cases hfind : l.find? p with
  | none =>
    have hnone := List.find?_eq_none.mp hfind x hx
    rw [hp] at hnone
    exact (hnone (decide_eq_true rfl)).elim
  | some y =>
    have hkey := List.find?_some hfind
    rw [hp] at hkey
    rw [h.eq (List.mem_of_find?_eq_some hfind) hx (of_decide_eq_true hkey)]

/-- Taking away what has the key of an item takes away the item. -/
theorem Apart.filter_eq_erase [DecidableEq α] (h : Apart key l) (hx : x ∈ l) (hp : ∀ y, p y = decide (key y ≠ key x)) :
    l.filter p = l.erase x := by
  have hnodup : l.Nodup := List.Nodup.of_map key h
  rw [hnodup.erase_eq_filter]
  refine List.filter_congr fun y hy => ?_
  rw [hp, bne, Bool.eq_iff_iff]
  simp only [decide_eq_true_eq, Bool.not_eq_true', beq_eq_false_iff_ne]
  exact not_congr ⟨fun hkey => h.eq hy hx hkey, fun heq => congrArg key heq⟩

/-! ## Changes in place -/

/-- Change the first item with the key. -/
def modifyFirst (key : α → κ) (k : κ) (f : α → α) : List α → List α
  | [] => []
  | x :: xs => if key x = k then f x :: xs else x :: modifyFirst key k f xs

theorem map_modifyFirst {g : α → β} (hf : ∀ x, key x = k → g (f x) = g x) :
    (modifyFirst key k f l).map g = l.map g := by
  induction l with
  | nil => rfl
  | cons x xs ih =>
    unfold modifyFirst
    split
    · next hkey => rw [List.map_cons, List.map_cons, hf x hkey]
    · rw [List.map_cons, List.map_cons, ih]

/-- A change that keeps a second key keeps the items apart by it. -/
theorem Apart.modified {g : α → β} (h : Apart g l) (hf : ∀ x, key x = k → g (f x) = g x) :
    Apart g (modifyFirst key k f l) := by
  unfold Apart
  rw [map_modifyFirst hf]
  exact h

theorem mem_modifyFirst (h : y ∈ modifyFirst key k f l) : y ∈ l ∨ ∃ x ∈ l, key x = k ∧ y = f x := by
  induction l with
  | nil => cases h
  | cons x xs ih =>
    unfold modifyFirst at h
    split at h
    · next hkey =>
      cases List.mem_cons.mp h with
      | inl heq => exact .inr ⟨x, List.mem_cons_self .., hkey, heq⟩
      | inr hrest => exact .inl (List.mem_cons_of_mem x hrest)
    · cases List.mem_cons.mp h with
      | inl heq => exact .inl (heq ▸ List.mem_cons_self ..)
      | inr hrest =>
        cases ih hrest with
        | inl hold => exact .inl (List.mem_cons_of_mem x hold)
        | inr hnew =>
          obtain ⟨z, hz, hboth⟩ := hnew
          exact .inr ⟨z, List.mem_cons_of_mem x hz, hboth⟩

/-- Items with another key are left as they are. -/
theorem filter_modifyFirst (hp : ∀ x ∈ l, key x = k → p x = false ∧ p (f x) = false) :
    (modifyFirst key k f l).filter p = l.filter p := by
  induction l with
  | nil => rfl
  | cons x xs ih =>
    unfold modifyFirst
    split
    · next hkey =>
      obtain ⟨hold, hnew⟩ := hp x (List.mem_cons_self ..) hkey
      rw [List.filter_cons_of_neg (by simp [hnew]), List.filter_cons_of_neg (by simp [hold])]
    · rw [List.filter_cons, List.filter_cons, ih fun y hy => hp y (List.mem_cons_of_mem x hy)]

/-- The one item with the key is changed. -/
theorem Apart.modifyFirst_eq_map [DecidableEq α] (h : Apart key l) (hx : x ∈ l) :
    modifyFirst key (key x) f l = l.map fun y => if y = x then f y else y := by
  induction l with
  | nil => cases hx
  | cons z zs ih =>
    obtain ⟨hz, hzs⟩ := List.nodup_cons.mp h
    unfold modifyFirst
    by_cases hkey : key z = key x
    · obtain rfl : z = x := h.eq (List.mem_cons_self ..) hx hkey
      have hrest : ∀ y ∈ zs, (if y = z then f y else y) = y := by
        intro y hy
        rw [if_neg]
        rintro rfl
        exact hz (List.mem_map_of_mem hy)
      rw [if_pos rfl, List.map_cons, if_pos rfl, List.map_congr_left hrest, List.map_id']
    · have hne : z ≠ x := fun heq => hkey (congrArg key heq)
      have hmem : x ∈ zs := (List.mem_cons.mp hx).resolve_left (Ne.symm hne)
      rw [if_neg hkey, List.map_cons, if_neg hne, ih hzs hmem]

end Decided

end Keyed
