-- SUMMARY: Slots with a limit for each key, and tables that count the slots of each key that has any.
import Mathlib.Data.List.AList
import Mathlib.Algebra.BigOperators.Group.Finset.Basic
import Mathlib.Algebra.Order.BigOperators.Group.Finset

/-!
# Slots

Holders take slots under a key and give them back in any order. A key has so many slots and no
more. The slots that are held are a multiset of keys; a table that counts them has no entry for a
key without any.
-/

namespace Slots

variable {κ : Type*} [DecidableEq κ] {max : ℕ} {held : Multiset κ} {j k : κ}

/-- The key may take one more slot. -/
def Free (max : ℕ) (held : Multiset κ) (k : κ) : Prop := held.count k < max

instance (max : ℕ) (held : Multiset κ) (k : κ) : Decidable (Free max held k) := inferInstanceAs (Decidable (_ < _))

/-- A slot is taken if there is one. -/
def take (max : ℕ) (held : Multiset κ) (k : κ) : Multiset κ := if Free max held k then k ::ₘ held else held

theorem free_take_of_ne (h : j ≠ k) : Free max (take max held k) j ↔ Free max held j := by
  unfold take
  split
  · unfold Free
    rw [Multiset.count_cons_of_ne h]
  · rfl

theorem free_erase_of_ne (h : j ≠ k) : Free max (held.erase k) j ↔ Free max held j := by
  unfold Free
  rw [Multiset.count_erase_of_ne h]

/-- No key holds more than its slots. -/
def Within (max : ℕ) (held : Multiset κ) : Prop := ∀ k, held.count k ≤ max

theorem within_zero : Within max (0 : Multiset κ) := by
  intro k
  rw [Multiset.count_zero]
  exact Nat.zero_le max

theorem Within.take (h : Within max held) (k : κ) : Within max (take max held k) := by
  intro j
  unfold Slots.take
  split
  · next hfree =>
    by_cases heq : j = k
    · subst heq
      rw [Multiset.count_cons_self]
      exact hfree
    · rw [Multiset.count_cons_of_ne heq]
      exact h j
  · exact h j

theorem Within.erase (h : Within max held) (k : κ) : Within max (held.erase k) :=
  fun j => Nat.le_trans (Multiset.count_le_of_le j (Multiset.erase_le k held)) (h j)

/-! ## Counting tables -/

/-- The table has the count of each key that holds a slot, and no other entry. -/
def Counts (m : AList fun _ : κ => ℕ) (held : Multiset κ) : Prop :=
  ∀ k, m.lookup k = if held.count k = 0 then none else some (held.count k)

variable {m : AList fun _ : κ => ℕ} {n : ℕ}

theorem counts_empty : Counts (∅ : AList fun _ : κ => ℕ) 0 := by
  intro k
  rw [Multiset.count_zero, if_pos rfl, AList.lookup_empty]

theorem Counts.lookup_of_eq_zero (h : Counts m held) (hk : held.count k = 0) : m.lookup k = none := by
  rw [h k, if_pos hk]

theorem Counts.lookup_of_ne_zero (h : Counts m held) (hk : held.count k ≠ 0) : m.lookup k = some (held.count k) := by
  rw [h k, if_neg hk]

/-- A table is changed at a key, and so are the slots. -/
theorem Counts.update {m' : AList fun _ : κ => ℕ} {held' : Multiset κ} (h : Counts m held)
    (hkey : m'.lookup k = if held'.count k = 0 then none else some (held'.count k))
    (hother : ∀ j, j ≠ k → m'.lookup j = m.lookup j ∧ held'.count j = held.count j) : Counts m' held' := by
  intro j
  by_cases heq : j = k
  · rw [heq]
    exact hkey
  · obtain ⟨hlookup, hcount⟩ := hother j heq
    rw [hlookup, hcount]
    exact h j

theorem Counts.insert_cons (h : Counts m held) (hn : n = held.count k + 1) : Counts (m.insert k n) (k ::ₘ held) := by
  refine h.update (k := k) ?_ fun j hj => ⟨AList.lookup_insert_ne hj, Multiset.count_cons_of_ne hj held⟩
  rw [AList.lookup_insert, Multiset.count_cons_self, if_neg (Nat.succ_ne_zero _), hn]

theorem Counts.insert_erase (h : Counts m held) (hn : n + 1 = held.count k) (hpos : n ≠ 0) :
    Counts (m.insert k n) (held.erase k) := by
  have hcount : (held.erase k).count k = n := by
    rw [Multiset.count_erase_self, ← hn, Nat.add_sub_cancel]
  refine h.update (k := k) ?_ fun j hj => ⟨AList.lookup_insert_ne hj, Multiset.count_erase_of_ne hj held⟩
  rw [AList.lookup_insert, hcount, if_neg hpos]

/-- The last slot of a key takes the entry with it, whatever has been written there. -/
theorem Counts.erase_erase (h : Counts m held) (hone : held.count k = 1) (n : ℕ) :
    Counts ((m.insert k n).erase k) (held.erase k) := by
  refine h.update (k := k) ?_ fun j hj => ⟨?_, Multiset.count_erase_of_ne hj held⟩
  · rw [AList.lookup_erase, Multiset.count_erase_self, hone, if_pos rfl]
  · rw [AList.lookup_erase_ne hj, AList.lookup_insert_ne hj]

/-! ## Holders -/

section Holders

variable {τ : Type*} {f : τ → Option κ} {ts : List τ} {t : τ} {i : ℕ}

omit [DecidableEq κ]

/-- The slot of one holder, if it holds one. -/
def slotOf : Option κ → Multiset κ
  | some k => {k}
  | none => 0

/-- The slots of a list of holders. -/
def heldBy (f : τ → Option κ) (ts : List τ) : Multiset κ := ts.filterMap f

theorem heldBy_cons : heldBy f (t :: ts) = slotOf (f t) + heldBy f ts := by
  unfold heldBy
  cases hf : f t with
  | none =>
    rw [List.filterMap_cons_none hf]
    exact (zero_add _).symm
  | some k =>
    rw [List.filterMap_cons_some hf]
    exact (Multiset.singleton_add k (ts.filterMap f : Multiset κ)).symm

theorem heldBy_of_perm {ts' : List τ} (h : ts.Perm ts') : heldBy f ts = heldBy f ts' :=
  Multiset.coe_eq_coe.mpr (h.filterMap f)

theorem heldBy_concat : heldBy f (ts ++ [t]) = slotOf (f t) + heldBy f ts := by
  rw [heldBy_of_perm (List.perm_append_singleton t ts), heldBy_cons]

/-- A holder goes, and its slot with it. -/
theorem heldBy_eraseIdx (h : ts[i]? = some t) : slotOf (f t) + heldBy f (ts.eraseIdx i) = heldBy f ts := by
  obtain ⟨hlt, rfl⟩ := List.getElem?_eq_some_iff.mp h
  rw [← heldBy_cons]
  exact heldBy_of_perm (List.getElem_cons_eraseIdx_perm hlt)

/-- A holder is replaced by another. -/
theorem heldBy_set (h : ts[i]? = some t) (t' : τ) :
    heldBy f (ts.set i t') = slotOf (f t') + heldBy f (ts.eraseIdx i) := by
  obtain ⟨hlt, rfl⟩ := List.getElem?_eq_some_iff.mp h
  rw [← heldBy_cons]
  exact heldBy_of_perm (List.set_perm_cons_eraseIdx hlt t')

/-- Holders that hold a slot of either one kind or another. -/
theorem length_eq_card {κ' : Type*} {g : τ → Option κ'} (h : ∀ t ∈ ts, (f t).isSome = !(g t).isSome) :
    ts.length = (heldBy f ts).card + (heldBy g ts).card := by
  induction ts with
  | nil => rfl
  | cons t ts ih =>
    have hrest := ih fun t' ht' => h t' (List.mem_cons_of_mem t ht')
    have hfirst := h t (List.mem_cons_self ..)
    rw [List.length_cons, hrest, heldBy_cons, heldBy_cons, Multiset.card_add, Multiset.card_add]
    cases hf : f t <;> cases hg : g t <;> simp [hf, hg, slotOf] at hfirst ⊢ <;> omega

end Holders

/-- So many keys hold no more than so many times the slots of each. -/
theorem Within.card_le (h : Within max held) : held.card ≤ max * held.toFinset.card := by
  rw [← Multiset.toFinset_sum_count_eq, Nat.mul_comm]
  exact Finset.sum_le_card_nsmul _ _ _ fun k _ => h k

end Slots
