-- SUMMARY: Lines between marks: taking marked blocks out of a text, and which other lines are lost with them.
import Mathlib.Data.List.DropRight

/-!
# Marked blocks

A block is a line with the begin mark, and what follows up to the next line with the end
mark. Taking the blocks out in one pass, with one bit of memory, also takes out what
follows a begin mark that is never ended, and end marks that end nothing.
-/

namespace Blocks

open scoped List

section Blocks

variable {α : Type*} (isBegin isEnd : α → Bool)

/-- The lines left by a pass over them that knows whether it is behind a begin mark. -/
def strip : Bool → List α → List α
  | _, [] => []
  | skipping, l :: ls =>
    if isBegin l then strip true ls
    else if isEnd l then strip false ls
    else if skipping then strip true ls
    else l :: strip false ls

/-- The lines that belong to no complete block; the first of them may be in one. -/
def outsideFrom : Bool → List α → List α
  | _, [] => []
  | true, l :: ls => if isEnd l then outsideFrom false ls else outsideFrom true ls
  | false, l :: ls =>
    -- a begin mark that is never ended begins no block
    if isBegin l && ls.any isEnd then outsideFrom true ls else l :: outsideFrom false ls

/-- The lines that belong to no complete block. -/
def outside (ls : List α) : List α := outsideFrom isBegin isEnd false ls

/-- The lines outside of blocks up to the last mark among them, and all of them where one of them is a
begin mark. -/
def stray (ls : List α) : List α :=
  if (outside isBegin isEnd ls).any isBegin then outside isBegin isEnd ls
  else (outside isBegin isEnd ls).rdropWhile fun l => !isEnd l

variable {isBegin isEnd} {l : α} {ls : List α}

theorem strip_sublist {skipping : Bool} : strip isBegin isEnd skipping ls <+ ls := by
  induction ls generalizing skipping with
  | nil => exact List.Sublist.refl _
  | cons l ls ih =>
    unfold strip
    split
    · exact ih.cons l
    · split
      · exact ih.cons l
      · split
        · exact ih.cons l
        · exact ih.cons_cons l

/-- Behind a begin mark that is not ended nothing is left. -/
theorem strip_unended (h : ls.any isEnd = false) : strip isBegin isEnd true ls = [] := by
  induction ls with
  | nil => rfl
  | cons l ls ih =>
    rw [List.any_cons, Bool.or_eq_false_iff] at h
    unfold strip
    rw [ih h.2, h.1]
    simp

/-- No mark is left. -/
theorem not_mark_of_mem_strip {skipping : Bool} (h : l ∈ strip isBegin isEnd skipping ls) :
    isBegin l = false ∧ isEnd l = false := by
  induction ls generalizing skipping with
  | nil => cases h
  | cons d ls ih =>
    unfold strip at h
    split at h
    · exact ih h
    · next hbegin =>
      split at h
      · exact ih h
      · next hend =>
        split at h
        · exact ih h
        · cases List.mem_cons.mp h with
          | inl heq => exact heq ▸ ⟨eq_false_of_ne_true hbegin, eq_false_of_ne_true hend⟩
          | inr htail => exact ih htail

/-- Lines without marks are all left. -/
theorem strip_plain (h : ∀ l ∈ ls, isBegin l = false ∧ isEnd l = false) : strip isBegin isEnd false ls = ls := by
  induction ls with
  | nil => rfl
  | cons d ls ih =>
    obtain ⟨⟨hbegin, hend⟩, hrest⟩ := List.forall_mem_cons.mp h
    unfold strip
    rw [hbegin, hend, ih hrest]
    rfl

/-- Up to its end mark nothing is left of a block, and what follows is stripped for itself. -/
theorem strip_inside {body : List α} {e : α} (hbody : ∀ l ∈ body, isEnd l = false) (he : isBegin e = false)
    (hend : isEnd e = true) : strip isBegin isEnd true (body ++ e :: ls) = strip isBegin isEnd false ls := by
  induction body with
  | nil => rw [List.nil_append, strip, he, hend, if_neg Bool.false_ne_true, if_pos rfl]
  | cons d body ih =>
    obtain ⟨hd, hrest⟩ := List.forall_mem_cons.mp hbody
    rw [List.cons_append, strip, hd, ih hrest]
    simp

theorem strip_block {b : α} {body : List α} {e : α} (hb : isBegin b = true) (hbody : ∀ l ∈ body, isEnd l = false)
    (he : isBegin e = false) (hend : isEnd e = true) :
    strip isBegin isEnd false (b :: body ++ e :: ls) = strip isBegin isEnd false ls := by
  rw [List.cons_append, strip, if_pos hb]
  exact strip_inside hbody he hend

theorem strip_eq_from (hdisjoint : ∀ l, isBegin l = true → isEnd l = false) {skipping : Bool}
    (hended : skipping = true → ls.any isEnd = true) : strip isBegin isEnd skipping ls =
      ((outsideFrom isBegin isEnd skipping ls).takeWhile fun l => !isBegin l).filter fun l => !isEnd l := by
  induction ls generalizing skipping with
  | nil => cases skipping <;> rfl
  | cons l ls ih =>
    cases skipping with
    | true =>
      have hrest := hended rfl
      rw [List.any_cons, Bool.or_eq_true] at hrest
      unfold strip outsideFrom
      cases hend : isEnd l with
      | true =>
        have hbegin : isBegin l = false := by
          cases hb : isBegin l with
          | false => rfl
          | true =>
            rw [hdisjoint l hb] at hend
            cases hend
        simp only [hbegin, Bool.false_eq_true, if_false, if_true]
        exact ih nofun
      | false =>
        rw [hend] at hrest
        simp only [Bool.false_eq_true, if_false, if_true, ite_self]
        exact ih fun _ => hrest.resolve_left Bool.false_ne_true
    | false =>
      unfold strip outsideFrom
      cases hbegin : isBegin l with
      | true =>
        -- a block without an end: nothing more is kept, on either side
        cases hany : ls.any isEnd with
        | true =>
          simp only [Bool.and_self, if_true]
          exact ih fun _ => hany
        | false => simp [strip_unended hany, hbegin]
      | false =>
        have hnext : strip isBegin isEnd false ls = _ := ih nofun
        cases hend : isEnd l <;> simp [hnext, hbegin, hend]

/-- What is left are the lines outside of blocks, up to a begin mark and without end marks. -/
theorem strip_eq (hdisjoint : ∀ l, isBegin l = true → isEnd l = false) (ls : List α) :
    strip isBegin isEnd false ls =
      ((outside isBegin isEnd ls).takeWhile fun l => !isBegin l).filter fun l => !isEnd l :=
  strip_eq_from hdisjoint nofun

/-! ## What is left behind a header -/

/-- What a text has up to a line that the second of two others lacks, the first of them has. -/
theorem sublist_append_of_not_mem {before after xs ys : List α} (hl : l ∉ ys)
    (h : before ++ l :: after <+ xs ++ ys) :
    ∃ after₁ after₂, after = after₁ ++ after₂ ∧ before ++ l :: after₁ <+ xs ∧ after₂ <+ ys := by
  obtain ⟨l₁, l₂, hsplit, hxs, hys⟩ := List.sublist_append_iff.mp h
  cases List.append_eq_append_iff.mp hsplit with
  | inl hinto =>
    obtain ⟨as, rfl, htail⟩ := hinto
    cases as with
    | nil =>
      rw [List.nil_append] at htail
      exact (hl (hys.subset (htail ▸ List.mem_cons_self ..))).elim
    | cons a as =>
      obtain ⟨rfl, rfl⟩ := List.cons.inj htail
      exact ⟨as, l₂, rfl, hxs, hys⟩
  | inr hover =>
    obtain ⟨bs, rfl, rfl⟩ := hover
    exact (hl (hys.subset (List.mem_append_right bs (List.mem_cons_self ..)))).elim

/-- A begin mark that is never ended: nothing is found again but what is in the header. -/
theorem sublist_of_unended {m b : α} {header before after : List α} (hb : isBegin b = true)
    (hbefore : ∀ l ∈ before, isBegin l = false) (hheader : ∀ l ∈ header, isBegin l = false)
    (h : before ++ b :: after <+ m :: header ++ before.filter fun l => !isEnd l) : before ++ b :: after <+ m :: header := by
  have hkept : b ∉ before.filter fun l => !isEnd l := by
    intro hmem
    rw [hbefore b (List.mem_filter.mp hmem).1] at hb
    cases hb
  have hnot : b ∉ header := by
    intro hmem
    rw [hheader b hmem] at hb
    cases hb
  obtain ⟨after₁, after₂, rfl, hin, hrest⟩ := sublist_append_of_not_mem hkept h
  cases before with
  | nil =>
    obtain rfl := List.sublist_nil.mp hrest
    rw [List.append_nil]
    exact hin
  | cons l before =>
    -- the mark would stand behind the first line of the header
    rw [List.cons_append] at hin
    have hbehind : before ++ b :: after₁ <+ header := by
      cases hin with
      | cons _ hskip => exact (List.sublist_cons_self _ _).trans hskip
      | cons_cons _ htake => exact htake
    exact (hnot (hbehind.subset (by simp))).elim

/-- Up to the last end mark that ends nothing, what is found again is in the header. -/
theorem sublist_of_stray {out header : List α} (h : out <+ header ++ out.filter fun l => !isEnd l) :
    (out.rdropWhile fun l => !isEnd l) <+ header := by
  cases List.eq_nil_or_concat (out.rdropWhile fun l => !isEnd l) with
  | inl hnil =>
    rw [hnil]
    exact List.nil_sublist _
  | inr hlast =>
    obtain ⟨before, e, heq⟩ := hlast
    rw [List.concat_eq_append] at heq
    have hend : isEnd e = true := by
      have hne : (out.rdropWhile fun l => !isEnd l) ≠ [] := by simp [heq]
      have hnot := List.rdropWhile_last_not (fun l => !isEnd l) out hne
      simpa [heq] using hnot
    have hkept : e ∉ out.filter fun l => !isEnd l := by
      intro hmem
      simpa [hend] using (List.mem_filter.mp hmem).2
    have hout : before ++ e :: out.rtakeWhile (fun l => !isEnd l) = out := by
      have hsplit := List.rdropWhile_append_rtakeWhile (p := fun l => !isEnd l) (l := out)
      rw [heq] at hsplit
      simpa using hsplit
    rw [heq]
    nth_rewrite 1 [← hout] at h
    obtain ⟨after₁, after₂, -, hin, -⟩ := sublist_append_of_not_mem hkept h
    refine List.Sublist.trans ?_ hin
    exact (List.Sublist.refl before).append (List.cons_sublist_cons.mpr (List.nil_sublist _))

/-- Behind a header whose only begin mark may be its first line, the lines outside of blocks are
all there exactly when the stray ones are in the header. -/
theorem outside_sublist_iff (hdisjoint : ∀ l, isBegin l = true → isEnd l = false) {m : α} {header : List α}
    (hheader : ∀ l ∈ header, isBegin l = false) (ls : List α) :
    outside isBegin isEnd ls <+ m :: header ++ strip isBegin isEnd false ls ↔
      stray isBegin isEnd ls <+ m :: header := by
  rw [strip_eq hdisjoint]
  unfold stray
  generalize outside isBegin isEnd ls = out
  cases hany : out.any isBegin with
  | true =>
    rw [if_pos rfl]
    refine ⟨fun h => ?_, fun h => h.trans (List.sublist_append_left _ _)⟩
    have hsplit := List.takeWhile_append_dropWhile (p := fun l => !isBegin l) (l := out)
    have hbefore : ∀ l ∈ out.takeWhile (fun l => !isBegin l), isBegin l = false :=
      fun l hl => by simpa using List.mem_takeWhile_imp hl
    cases hdrop : out.dropWhile (fun l => !isBegin l) with
    | nil =>
      obtain ⟨l, hl, hbegin⟩ := List.any_eq_true.mp hany
      have hnone := List.dropWhile_eq_nil_iff.mp hdrop l hl
      rw [hbegin] at hnone
      cases hnone
    -- the first begin mark outside of blocks is never ended
    | cons b after =>
      have hb : isBegin b = true := by
        have hhead := List.head_dropWhile_not (fun l => !isBegin l) (l := out) (by simp [hdrop])
        simpa [hdrop] using hhead
      rw [hdrop] at hsplit
      nth_rewrite 1 [← hsplit] at h
      rw [← hsplit]
      exact sublist_of_unended hb hbefore hheader h
  | false =>
    have hkept : out.takeWhile (fun l => !isBegin l) = out := by
      refine List.takeWhile_eq_self_iff.mpr fun l hl => ?_
      simpa using List.any_eq_false.mp hany l hl
    rw [if_neg Bool.false_ne_true, hkept]
    refine ⟨sublist_of_stray, fun h => ?_⟩
    have hrest : (out.rtakeWhile fun l => !isEnd l) <+ out.filter fun l => !isEnd l := by
      have hall : (out.rtakeWhile fun l => !isEnd l).filter (fun l => !isEnd l) = out.rtakeWhile fun l => !isEnd l :=
        List.filter_eq_self.mpr fun _ hl => List.mem_rtakeWhile_imp (p := fun l => !isEnd l) hl
      rw [← hall]
      exact (List.rtakeWhile_suffix _ _).sublist.filter _
    have hboth := h.append hrest
    rwa [List.rdropWhile_append_rtakeWhile] at hboth

end Blocks

end Blocks
