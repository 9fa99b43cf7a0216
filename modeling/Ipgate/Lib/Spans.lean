-- SUMMARY: Merging closed intervals by sorting and sweeping: what is covered, and that the result is disjoint.
import Mathlib.Data.List.Sort
import Mathlib.Data.Nat.Basic

/-!
# Merging intervals

Sort a list of closed intervals by their lower ends, then walk over it and let
each interval absorb the ones behind it that meet or touch it. The merged list
covers the same points, and leaves a gap between any two of its intervals. None
of this needs the lower end of an interval to be below its upper end.
-/

namespace Spans

/-- What the sweep does with values of a type of intervals. -/
structure Ops (ι : Type*) where
  lo : ι → ℕ
  hi : ι → ℕ
  /-- Extend the first interval to the end of the second. -/
  join : ι → ι → ι
  lo_join : ∀ a b, lo (join a b) = lo a
  hi_join : ∀ a b, hi (join a b) = max (hi a) (hi b)

namespace Ops

variable {ι : Type*} (O : Ops ι) {a b cur : ι} {l : List ι} {x : ℕ}

def Mem (x : ℕ) (a : ι) : Prop := O.lo a ≤ x ∧ x ≤ O.hi a

/-- Some interval of the list has the point in it. -/
def Covers (l : List ι) (x : ℕ) : Prop := ∃ a ∈ l, O.Mem x a

/-- Whole points lie between the end of the first and the start of the second. -/
def Gap (a b : ι) : Prop := O.hi a + 1 < O.lo b

/-- The order the list is sorted by. -/
def before (a b : ι) : Bool := O.lo a ≤ O.lo b

def sort (l : List ι) : List ι := l.mergeSort O.before

/-- Walk over a sorted list; `cur` is the last interval of the merged list so far. -/
def sweep (cur : ι) : List ι → List ι
  | [] => [cur]
  | a :: rest =>
    if O.lo a ≤ O.hi cur + 1 then sweep (O.join cur a) rest else cur :: sweep a rest

def merge (l : List ι) : List ι :=
  match O.sort l with
  | [] => []
  | a :: rest => O.sweep a rest

/-! ## Sorting -/

/-- Lower ends ascend. -/
def Sorted (l : List ι) : Prop := l.Pairwise fun a b => O.lo a ≤ O.lo b

theorem before_trans (a b c : ι) (hab : O.before a b) (hbc : O.before b c) : O.before a c := by
  simp only [before, decide_eq_true_eq] at *
  omega

theorem before_total (a b : ι) : O.before a b || O.before b a := by
  simp only [before, Bool.or_eq_true, decide_eq_true_eq]
  omega

theorem sort_sorted (l : List ι) : O.Sorted (O.sort l) := by
  have h := List.pairwise_mergeSort O.before_trans O.before_total l
  exact h.imp fun hab => of_decide_eq_true hab

@[simp] theorem mem_sort : a ∈ O.sort l ↔ a ∈ l := List.mem_mergeSort

@[simp] theorem covers_sort : O.Covers (O.sort l) x ↔ O.Covers l x := by
  simp [Covers]

/-! ## What the sweep covers -/

@[simp] theorem covers_nil : ¬O.Covers [] x := by
  simp [Covers]

@[simp] theorem covers_cons : O.Covers (a :: l) x ↔ O.Mem x a ∨ O.Covers l x := by
  simp [Covers]

/-- Touching intervals leave no point out between them. -/
theorem mem_join (hle : O.lo cur ≤ O.lo a) (htouch : O.lo a ≤ O.hi cur + 1) :
    O.Mem x (O.join cur a) ↔ O.Mem x cur ∨ O.Mem x a := by
  simp only [Mem, lo_join, hi_join]
  omega

theorem sorted_join (h : O.Sorted (cur :: a :: l)) : O.Sorted (O.join cur a :: l) := by
  obtain ⟨hcur, htail⟩ := List.pairwise_cons.mp h
  refine List.pairwise_cons.mpr ⟨fun b hb => ?_, htail.of_cons⟩
  rw [lo_join]
  exact hcur b (List.mem_cons_of_mem a hb)

theorem covers_sweep (h : O.Sorted (cur :: l)) : O.Covers (O.sweep cur l) x ↔ O.Covers (cur :: l) x := by
  induction l generalizing cur with
  | nil => rfl
  | cons a rest ih =>
    have hle : O.lo cur ≤ O.lo a := List.rel_of_pairwise_cons h (List.mem_cons_self ..)
    unfold sweep
    split
    · next htouch =>
      rw [ih (O.sorted_join h), covers_cons, O.mem_join hle htouch, covers_cons, covers_cons, or_assoc]
    · rw [covers_cons, ih h.of_cons, covers_cons, covers_cons, covers_cons]

/-- Merging neither adds nor loses a point. -/
@[simp] theorem covers_merge : O.Covers (O.merge l) x ↔ O.Covers l x := by
  have hsorted := O.sort_sorted l
  rw [← O.covers_sort (l := l), merge]
  cases h : O.sort l with
  | nil => rfl
  | cons a rest => exact O.covers_sweep (h ▸ hsorted)

/-! ## What the sweep leaves apart -/

/-- The sweep starts no interval before its first one. -/
theorem lo_le_of_mem_sweep (h : O.Sorted (cur :: l)) (hb : b ∈ O.sweep cur l) : O.lo cur ≤ O.lo b := by
  induction l generalizing cur with
  | nil => simp_all [sweep]
  | cons a rest ih =>
    have hle : O.lo cur ≤ O.lo a := List.rel_of_pairwise_cons h (List.mem_cons_self ..)
    unfold sweep at hb
    split at hb
    · simpa only [lo_join] using ih (O.sorted_join h) hb
    · rcases List.mem_cons.mp hb with rfl | hb
      · exact le_rfl
      · exact hle.trans (ih h.of_cons hb)

theorem sweep_gap (h : O.Sorted (cur :: l)) : (O.sweep cur l).Pairwise O.Gap := by
  induction l generalizing cur with
  | nil => simp [sweep]
  | cons a rest ih =>
    unfold sweep
    split
    · exact ih (O.sorted_join h)
    · next hapart =>
      refine List.pairwise_cons.mpr ⟨fun b hb => ?_, ih h.of_cons⟩
      have := O.lo_le_of_mem_sweep h.of_cons hb
      unfold Gap
      omega

/-- The merged intervals ascend with a gap between any two of them. -/
theorem merge_gap (l : List ι) : (O.merge l).Pairwise O.Gap := by
  have hsorted := O.sort_sorted l
  unfold merge
  cases h : O.sort l with
  | nil => exact List.Pairwise.nil
  | cons a rest => exact O.sweep_gap (h ▸ hsorted)

/-! ## Intervals that are not empty -/

theorem sweep_nonempty (h : ∀ c ∈ cur :: l, O.lo c ≤ O.hi c) (hb : b ∈ O.sweep cur l) : O.lo b ≤ O.hi b := by
  induction l generalizing cur with
  | nil =>
    rw [List.mem_singleton.mp hb]
    exact h cur (List.mem_singleton_self cur)
  | cons a rest ih =>
    obtain ⟨hcur, ha, hrest⟩ : O.lo cur ≤ O.hi cur ∧ O.lo a ≤ O.hi a ∧ ∀ c ∈ rest, O.lo c ≤ O.hi c := by
      simpa only [List.forall_mem_cons] using h
    unfold sweep at hb
    split at hb
    · refine ih (List.forall_mem_cons.mpr ⟨?_, hrest⟩) hb
      rw [lo_join, hi_join]
      exact hcur.trans (le_max_left ..)
    · cases List.mem_cons.mp hb with
      | inl heq => exact heq ▸ hcur
      | inr htail => exact ih (List.forall_mem_cons.mpr ⟨ha, hrest⟩) htail

/-- Where no interval was empty, none of the merged ones is. -/
theorem merge_nonempty (h : ∀ a ∈ l, O.lo a ≤ O.hi a) (hb : b ∈ O.merge l) : O.lo b ≤ O.hi b := by
  have hsort : ∀ a ∈ O.sort l, O.lo a ≤ O.hi a := fun a ha => h a (O.mem_sort.mp ha)
  unfold merge at hb
  split at hb
  · cases hb
  · next hl => exact O.sweep_nonempty (hl ▸ hsort) hb

end Ops

end Spans
