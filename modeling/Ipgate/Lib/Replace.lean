-- SUMMARY: A file that is replaced by renaming another over it, by processes that keep to a lock and may stop at any point.
import Ipgate.Lib.Lts
import Mathlib.Logic.Function.Basic

/-!
# Replacing a file

A process that changes a file takes a lock, reads the file, writes the changed text to a
temporary file, and renames that over the file. Others read the file without the lock. A
process may stop at any point, and its lock is free then. All the same the file is at any
time what the changes that have been renamed make of it one after the other, and who reads
it gets such a text as a whole.
-/

namespace Replace

/-! ## Files -/

/-- The file and the temporary file, by the inodes that have their names. -/
structure Files (α : Type*) where
  data : ℕ → List α
  /-- No inode from here on has been used. -/
  fresh : ℕ
  main : Option ℕ
  temp : Option ℕ

namespace Files

variable {α : Type*} {F : Files α} {i j : ℕ} {text : List α}

/-- What is in the file, if there is one. -/
def content (F : Files α) : Option (List α) := F.main.map F.data

/-- Open the temporary file: the one that is there is emptied, or there is a new one. -/
def openTemp (F : Files α) : ℕ × Files α :=
  match F.temp with
  | some i => (i, { F with data := Function.update F.data i [] })
  | none => (F.fresh, { F with data := Function.update F.data F.fresh [], fresh := F.fresh + 1, temp := some F.fresh })

def append (F : Files α) (i : ℕ) (text : List α) : Files α :=
  { F with data := Function.update F.data i (F.data i ++ text) }

/-- Rename the temporary file over the file. -/
def rename (F : Files α) : Option (Files α) := F.temp.map fun i => { F with main := some i, temp := none }

/-- An inode that nobody will write again. -/
def Settled (F : Files α) (i : ℕ) : Prop := i < F.fresh ∧ F.temp ≠ some i

structure WellFormed (F : Files α) : Prop where
  main : ∀ i, F.main = some i → F.Settled i
  temp : ∀ i, F.temp = some i → i < F.fresh

/-- Settled inodes are still settled, and what is in them is as it was. -/
def Keeps (F F' : Files α) : Prop := ∀ i, F.Settled i → F'.Settled i ∧ F'.data i = F.data i

theorem Keeps.refl (F : Files α) : F.Keeps F := fun _ h => ⟨h, rfl⟩

theorem Keeps.content {F' : Files α} (h : F.Keeps F') (hF : F.WellFormed) (hmain : F'.main = F.main) :
    F'.content = F.content := by
  unfold Files.content
  rw [hmain]
  cases hi : F.main with
  | none => rfl
  | some i => exact congrArg some (h i (hF.main i hi)).2

theorem openTemp_temp : F.openTemp.2.temp = some F.openTemp.1 := by
  unfold openTemp
  cases F.temp with
  | none => rfl
  | some i => rfl

theorem openTemp_data : F.openTemp.2.data F.openTemp.1 = [] := by
  unfold openTemp
  cases F.temp with
  | none => exact Function.update_self ..
  | some i => exact Function.update_self ..

theorem openTemp_main : F.openTemp.2.main = F.main := by
  unfold openTemp
  cases F.temp with
  | none => rfl
  | some i => rfl

theorem keeps_openTemp : F.Keeps F.openTemp.2 := by
  intro j hj
  unfold openTemp
  cases h : F.temp with
  | none =>
    have hne : j ≠ F.fresh := Nat.ne_of_lt hj.1
    exact ⟨⟨Nat.lt_succ_of_lt hj.1, fun hsame => hne (Option.some.inj hsame).symm⟩, Function.update_of_ne hne ..⟩
  | some i =>
    have hne : j ≠ i := by
      rintro rfl
      exact hj.2 h
    exact ⟨⟨hj.1, fun hsame => hj.2 (h.trans hsame)⟩, Function.update_of_ne hne ..⟩

theorem WellFormed.openTemp (h : F.WellFormed) : F.openTemp.2.WellFormed where
  main i hi := (keeps_openTemp i (h.main i (openTemp_main ▸ hi))).1
  temp i hi := by
    obtain rfl : F.openTemp.1 = i := Option.some.inj (openTemp_temp.symm.trans hi)
    unfold Files.openTemp
    cases htemp : F.temp with
    | none => exact Nat.lt_succ_self _
    | some j => exact h.temp j htemp

theorem append_data : (F.append i text).data i = F.data i ++ text := Function.update_self ..

theorem keeps_append (hi : F.temp = some i) : F.Keeps (F.append i text) := by
  intro j hj
  have hne : j ≠ i := by
    rintro rfl
    exact hj.2 hi
  exact ⟨hj, Function.update_of_ne hne ..⟩

theorem WellFormed.append (h : F.WellFormed) (hi : F.temp = some i) : (F.append i text).WellFormed where
  main j hj := (keeps_append hi j (h.main j hj)).1
  temp := h.temp

theorem rename_eq (hi : F.temp = some i) : F.rename = some { F with main := some i, temp := none } := by
  unfold rename
  rw [hi]
  rfl

theorem WellFormed.rename {F' : Files α} (h : F.WellFormed) (hF' : F.rename = some F') : F'.WellFormed := by
  obtain ⟨i, hi, rfl⟩ := Option.map_eq_some_iff.mp hF'
  exact { main := fun j hj => ⟨Option.some.inj hj ▸ h.temp i hi, nofun⟩, temp := nofun }

theorem keeps_rename {F' : Files α} (hF' : F.rename = some F') : F.Keeps F' := by
  obtain ⟨i, hi, rfl⟩ := Option.map_eq_some_iff.mp hF'
  exact fun j hj => ⟨⟨hj.1, nofun⟩, rfl⟩

end Files

/-! ## Processes -/

/-- Where a process is. The changes it can make have names in `ι`. -/
inductive Phase (α ι : Type*) where
  | idle
  | locked (e : ι)
  /-- It has opened the file, if there is one. -/
  | reading (e : ι) (i : Option ℕ)
  /-- It knows what to write. -/
  | changing (e : ι) (text : List α)
  | writing (e : ι) (i : ℕ) (rest : List α)
  /-- It has changed the file, or found nothing to change. -/
  | ended (e : ι) (changed : Bool)
  /-- It has opened the file to look at it, without the lock. -/
  | viewing (i : Option ℕ)

/-- The process has the lock. -/
def Phase.holds {α ι : Type*} : Phase α ι → Bool
  | .idle | .viewing _ => false
  | .locked _ | .reading _ _ | .changing _ _ | .writing _ _ _ | .ended _ _ => true

structure Sys (α ι π : Type*) where
  files : Files α
  lock : Option π
  phase : π → Phase α ι

inductive Event (α ι π : Type*) where
  | acquire (p : π) (e : ι)
  | openFile (p : π)
  | read (p : π)
  /-- The file cannot be opened or read. -/
  | misread (p : π)
  | openTemp (p : π)
  /-- At most so much of what is left is written. -/
  | write (p : π) (n : ℕ)
  | publish (p : π) (e : ι)
  | release (p : π) (changed : Bool)
  /-- It fails or is killed. -/
  | stop (p : π)
  | view (p : π)
  | look (p : π) (text : Option (List α))

namespace Event

variable {α ι π : Type*}

def proc : Event α ι π → π
  | acquire p _ | openFile p | read p | misread p | openTemp p | write p _ | publish p _ | release p _ | stop p
  | view p | look p _ => p

/-- The change that the event puts in force. -/
def published : Event α ι π → Option ι
  | publish _ e => some e
  | _ => none

/-- The process begins something else. -/
def Begins (p : π) (ev : Event α ι π) : Prop := ev = view p ∨ ∃ e, ev = acquire p e

end Event

section Step

variable {α ι π : Type*} [DecidableEq α] [DecidableEq ι] [DecidableEq π]

def Sys.to (s : Sys α ι π) (p : π) (phase : Phase α ι) : Sys α ι π :=
  { s with phase := Function.update s.phase p phase }

/-- The next state. A change makes another text of the one that is there, or finds nothing to change. -/
def step (edit : ι → List α → Option (List α)) (s : Sys α ι π) : Event α ι π → Option (Sys α ι π)
  | .acquire p e =>
    match s.phase p, s.lock with
    | .idle, none => some { s.to p (.locked e) with lock := some p }
    | _, _ => none
  | .openFile p =>
    match s.phase p with
    | .locked e => some (s.to p (.reading e s.files.main))
    | _ => none
  | .read p =>
    match s.phase p with
    | .reading e i =>
      match edit e ((i.map s.files.data).getD []) with
      | some text => some (s.to p (.changing e text))
      | none => some (s.to p (.ended e false))
    | _ => none
  -- A file that cannot be read counts as empty, for those that find nothing to change in an empty one.
  | .misread p =>
    match s.phase p with
    | .locked e | .reading e _ => if edit e [] = none then some (s.to p (.ended e false)) else none
    | _ => none
  | .openTemp p =>
    match s.phase p with
    | .changing e text => some { s.to p (.writing e s.files.openTemp.1 text) with files := s.files.openTemp.2 }
    | _ => none
  | .write p n =>
    match s.phase p with
    | .writing e i rest =>
      some { s.to p (.writing e i (rest.drop n)) with files := s.files.append i (rest.take n) }
    | _ => none
  | .publish p e =>
    match s.phase p, s.files.rename with
    | .writing e' _ [], some files => if e' = e then some { s.to p (.ended e true) with files } else none
    | _, _ => none
  | .release p changed =>
    match s.phase p with
    | .ended _ b => if b = changed then some { s.to p .idle with lock := none } else none
    | _ => none
  | .stop p => some { s.to p .idle with lock := if s.lock = some p then none else s.lock }
  | .view p =>
    match s.phase p with
    | .idle => some (s.to p (.viewing s.files.main))
    | _ => none
  | .look p text =>
    match s.phase p with
    | .viewing i => if i.map s.files.data = text then some (s.to p .idle) else none
    | _ => none

/-- What the next event can be, and the state it leads to. -/
inductive Moves (edit : ι → List α → Option (List α)) (s : Sys α ι π) : Event α ι π → Sys α ι π → Prop where
  | acquire {p e} (hphase : s.phase p = .idle) (hlock : s.lock = none) :
    Moves edit s (.acquire p e) { s.to p (.locked e) with lock := some p }
  | openFile {p e} (hphase : s.phase p = .locked e) : Moves edit s (.openFile p) (s.to p (.reading e s.files.main))
  | change {p e i text} (hphase : s.phase p = .reading e i) (hedit : edit e ((i.map s.files.data).getD []) = some text) :
    Moves edit s (.read p) (s.to p (.changing e text))
  | unchanged {p e i} (hphase : s.phase p = .reading e i) (hedit : edit e ((i.map s.files.data).getD []) = none) :
    Moves edit s (.read p) (s.to p (.ended e false))
  | misread {p e} (hphase : s.phase p = .locked e ∨ ∃ i, s.phase p = .reading e i) (hedit : edit e [] = none) :
    Moves edit s (.misread p) (s.to p (.ended e false))
  | openTemp {p e text} (hphase : s.phase p = .changing e text) :
    Moves edit s (.openTemp p) { s.to p (.writing e s.files.openTemp.1 text) with files := s.files.openTemp.2 }
  | write {p e i rest n} (hphase : s.phase p = .writing e i rest) :
    Moves edit s (.write p n) { s.to p (.writing e i (rest.drop n)) with files := s.files.append i (rest.take n) }
  | publish {p e i files} (hphase : s.phase p = .writing e i []) (hrename : s.files.rename = some files) :
    Moves edit s (.publish p e) { s.to p (.ended e true) with files }
  | release {p e b} (hphase : s.phase p = .ended e b) : Moves edit s (.release p b) { s.to p .idle with lock := none }
  | stop {p} : Moves edit s (.stop p) { s.to p .idle with lock := if s.lock = some p then none else s.lock }
  | view {p} (hphase : s.phase p = .idle) : Moves edit s (.view p) (s.to p (.viewing s.files.main))
  | look {p i} (hphase : s.phase p = .viewing i) : Moves edit s (.look p (i.map s.files.data)) (s.to p .idle)

variable {edit : ι → List α → Option (List α)} {s s' : Sys α ι π} {ev : Event α ι π} {p : π} {e : ι} {b : Bool}
variable {text : Option (List α)}

theorem moves_read (h : step edit s (.read p) = some s') : Moves edit s (.read p) s' := by
  simp only [step] at h
  split at h
  · next hphase =>
    split at h
    · next hedit =>
      cases h
      exact .change hphase hedit
    · next hedit =>
      cases h
      exact .unchanged hphase hedit
  · cases h

theorem moves_misread (h : step edit s (.misread p) = some s') : Moves edit s (.misread p) s' := by
  simp only [step] at h
  split at h
  · next hphase =>
    split at h
    · next hedit =>
      cases h
      exact .misread (.inl hphase) hedit
    · cases h
  · next hphase =>
    split at h
    · next hedit =>
      cases h
      exact .misread (.inr ⟨_, hphase⟩) hedit
    · cases h
  · cases h

theorem moves_publish (h : step edit s (.publish p e) = some s') : Moves edit s (.publish p e) s' := by
  simp only [step] at h
  split at h
  · next hphase hrename =>
    split at h
    · next hsame =>
      subst hsame
      cases h
      exact .publish hphase hrename
    · cases h
  · cases h

theorem moves_release (h : step edit s (.release p b) = some s') : Moves edit s (.release p b) s' := by
  simp only [step] at h
  split at h
  · next hphase =>
    split at h
    · next hsame =>
      subst hsame
      cases h
      exact .release hphase
    · cases h
  · cases h

theorem moves_look (h : step edit s (.look p text) = some s') : Moves edit s (.look p text) s' := by
  simp only [step] at h
  split at h
  · next hphase =>
    split at h
    · next hsame =>
      subst hsame
      cases h
      exact .look hphase
    · cases h
  · cases h

theorem step_moves (h : step edit s ev = some s') : Moves edit s ev s' := by
  cases ev with
  | acquire p e =>
    simp only [step] at h
    split at h
    · next hphase hlock =>
      cases h
      exact .acquire hphase hlock
    · cases h
  | openFile p =>
    simp only [step] at h
    split at h
    · next hphase =>
      cases h
      exact .openFile hphase
    · cases h
  | read p => exact moves_read h
  | misread p => exact moves_misread h
  | openTemp p =>
    simp only [step] at h
    split at h
    · next hphase =>
      cases h
      exact .openTemp hphase
    · cases h
  | write p n =>
    simp only [step] at h
    split at h
    · next hphase =>
      cases h
      exact .write hphase
    · cases h
  | publish p e => exact moves_publish h
  | release p b => exact moves_release h
  | stop p =>
    cases h
    exact .stop
  | view p =>
    simp only [step] at h
    split at h
    · next hphase =>
      cases h
      exact .view hphase
    · cases h
  | look p text => exact moves_look h

end Step

/-! ## What holds at any time -/

section Invariant

variable {α ι π : Type*} {edit : ι → List α → Option (List α)} {F : Files α}

/-- What a process that is there knows of the files. -/
def Phase.Ok (edit : ι → List α → Option (List α)) (F : Files α) : Phase α ι → Prop
  | .idle | .locked _ | .ended _ _ => True
  | .reading _ i => i = F.main
  | .changing e text => edit e (F.content.getD []) = some text
  | .writing e i rest => F.temp = some i ∧ edit e (F.content.getD []) = some (F.data i ++ rest)
  | .viewing i => ∀ j, i = some j → F.Settled j

structure Inv (edit : ι → List α → Option (List α)) (s : Sys α ι π) : Prop where
  files : s.files.WellFormed
  lock : ∀ p, s.lock = some p ↔ (s.phase p).holds = true
  phase : ∀ p, (s.phase p).Ok edit s.files

variable [DecidableEq π] {s s' : Sys α ι π} {p q : π} {phase : Phase α ι} {ev : Event α ι π}

theorem Sys.to_phase_self : (s.to p phase).phase p = phase := Function.update_self ..

theorem Sys.to_phase_of_ne (h : q ≠ p) : (s.to p phase).phase q = s.phase q := Function.update_of_ne h ..

/-- Who does not have the lock does not notice a change of the files. -/
theorem Phase.Ok.keeps {F' : Files α} (h : phase.Ok edit F) (hkeeps : F.Keeps F') (hfree : phase.holds = false) :
    phase.Ok edit F' := by
  cases phase with
  | idle => trivial
  | viewing i => exact fun j hj => (hkeeps j (h j hj)).1
  | _ => cases hfree

omit [DecidableEq π] in
theorem Inv.alone (hI : Inv edit s) (hp : (s.phase p).holds = true) (hq : q ≠ p) : (s.phase q).holds = false := by
  rw [Bool.eq_false_iff]
  intro hholds
  exact hq (Option.some.inj (((hI.lock q).mpr hholds).symm.trans ((hI.lock p).mpr hp)))

/-- The process with the lock goes on. -/
theorem Inv.go (hI : Inv edit s) (hp : (s.phase p).holds = true) {files : Files α} (hfiles : files.WellFormed)
    (hkeeps : s.files.Keeps files) (hholds : phase.holds = true) (hok : phase.Ok edit files) :
    Inv edit { s.to p phase with files } where
  files := hfiles
  lock q := by
    by_cases hq : q = p
    · subst hq
      rw [Sys.to_phase_self]
      exact iff_of_true ((hI.lock q).mpr hp) hholds
    · rw [Sys.to_phase_of_ne hq]
      exact hI.lock q
  phase q := by
    by_cases hq : q = p
    · subst hq
      rw [Sys.to_phase_self]
      exact hok
    · rw [Sys.to_phase_of_ne hq]
      exact (hI.phase q).keeps hkeeps (hI.alone hp hq)

/-- A process goes on that leaves the files as they are. -/
theorem Inv.turn (hI : Inv edit s) {lock : Option π} (hself : lock = some p ↔ phase.holds = true)
    (hother : ∀ q, q ≠ p → (lock = some q ↔ s.lock = some q)) (hok : phase.Ok edit s.files) :
    Inv edit { s.to p phase with lock } where
  files := hI.files
  lock q := by
    by_cases hq : q = p
    · subst hq
      rw [Sys.to_phase_self]
      exact hself
    · rw [Sys.to_phase_of_ne hq]
      exact (hother q hq).trans (hI.lock q)
  phase q := by
    by_cases hq : q = p
    · subst hq
      rw [Sys.to_phase_self]
      exact hok
    · rw [Sys.to_phase_of_ne hq]
      exact hI.phase q

theorem Moves.inv (h : Moves edit s ev s') (hI : Inv edit s) : Inv edit s' := by
  cases h with
  | @acquire p e hphase hlock =>
    exact hI.turn (iff_of_true rfl rfl) (fun q hq => iff_of_false (fun h => hq (Option.some.inj h).symm)
      (fun h => by rw [hlock] at h; cases h)) trivial
  | @openFile p e hphase =>
    exact hI.go (by rw [hphase]; rfl) hI.files (.refl _) rfl rfl
  | @change p e i text hphase hedit =>
    -- what was opened under the lock is still the file
    obtain rfl : i = s.files.main := by simpa [hphase, Phase.Ok] using hI.phase p
    exact hI.go (by rw [hphase]; rfl) hI.files (.refl _) rfl hedit
  | @unchanged p e i hphase hedit =>
    exact hI.go (by rw [hphase]; rfl) hI.files (.refl _) rfl trivial
  | @misread p e hphase hedit =>
    have hholds : (s.phase p).holds = true := by
      cases hphase with
      | inl h => rw [h]; rfl
      | inr h =>
        obtain ⟨i, h⟩ := h
        rw [h]; rfl
    exact hI.go hholds hI.files (.refl _) rfl trivial
  | @openTemp p e text hphase =>
    have hedit : edit e (s.files.content.getD []) = some text := by simpa [hphase, Phase.Ok] using hI.phase p
    refine hI.go (by rw [hphase]; rfl) hI.files.openTemp Files.keeps_openTemp rfl ⟨Files.openTemp_temp, ?_⟩
    rw [Files.keeps_openTemp.content hI.files Files.openTemp_main, Files.openTemp_data]
    exact hedit
  | @write p e i rest n hphase =>
    obtain ⟨htemp, hedit⟩ : s.files.temp = some i ∧ edit e (s.files.content.getD []) = some (s.files.data i ++ rest) := by
      simpa [hphase, Phase.Ok] using hI.phase p
    refine hI.go (by rw [hphase]; rfl) (hI.files.append htemp) (Files.keeps_append htemp) rfl ⟨htemp, ?_⟩
    rw [(Files.keeps_append htemp).content hI.files rfl, Files.append_data, List.append_assoc, List.take_append_drop]
    exact hedit
  | @publish p e i files hphase hrename =>
    exact hI.go (by rw [hphase]; rfl) (hI.files.rename hrename) (Files.keeps_rename hrename) rfl trivial
  | @release p e b hphase =>
    have hlock : s.lock = some p := (hI.lock p).mpr (by rw [hphase]; rfl)
    exact hI.turn (iff_of_false nofun nofun) (fun q hq => iff_of_false nofun
      (fun h => hq (Option.some.inj (h.symm.trans hlock)))) trivial
  | @stop p =>
    refine hI.turn (iff_of_false ?_ nofun) (fun q hq => ?_) trivial
    · split
      · exact nofun
      · next h => exact h
    · split
      · next h => exact iff_of_false nofun fun h' => hq (Option.some.inj (h'.symm.trans h))
      · exact Iff.rfl
  | @view p hphase =>
    -- a view takes no lock
    have hfree : ¬s.lock = some p := fun h => by
      have := (hI.lock p).mp h
      rw [hphase] at this
      cases this
    exact hI.turn (iff_of_false hfree nofun) (fun q _ => Iff.rfl) fun j hj => hI.files.main j hj
  | @look p i hphase =>
    have hfree : ¬s.lock = some p := fun h => by
      have := (hI.lock p).mp h
      rw [hphase] at this
      cases this
    exact hI.turn (iff_of_false hfree nofun) (fun q _ => Iff.rfl) trivial

end Invariant

/-! ## Changes one after the other -/

section History

variable {α ι π : Type*} {edit : ι → List α → Option (List α)} {c₀ : Option (List α)} {F : Files α}
variable {es : List (Event α ι π)} {ev : Event α ι π} {p q : π}

/-- What a change makes of the file. -/
def apply (edit : ι → List α → Option (List α)) (c : Option (List α)) (e : ι) : Option (List α) :=
  match edit e (c.getD []) with
  | some text => some text
  | none => c

/-- What the published changes make of the file, one after the other. -/
def shown (edit : ι → List α → Option (List α)) (c₀ : Option (List α)) (es : List (Event α ι π)) : Option (List α) :=
  (es.filterMap Event.published).foldl (apply edit) c₀

theorem shown_append {es' : List (Event α ι π)} (h : es'.filterMap Event.published = []) :
    shown edit c₀ (es ++ es') = shown edit c₀ es := by
  unfold shown
  rw [List.filterMap_append, h, List.append_nil]

/-- What has become of the change that a process makes: `changed` says how it ended, if it has. Since
it took the lock, no other change has been published. -/
structure Call (edit : ι → List α → Option (List α)) (c : Option (List α)) (p : π) (e : ι) (changed : Option Bool)
    (post : List (Event α ι π)) : Prop where
  last : ∀ ev ∈ post, ¬ev.Begins p
  published : post.filterMap Event.published = if changed = some true then [e] else []
  change : changed = some true → (edit e (c.getD [])).isSome
  noChange : changed = some false → edit e (c.getD []) = none ∨ (.misread p ∈ post ∧ edit e [] = none)

def Called (edit : ι → List α → Option (List α)) (c₀ : Option (List α)) (es : List (Event α ι π)) (p : π) (e : ι)
    (changed : Option Bool) : Prop :=
  ∃ pre post, es = pre ++ .acquire p e :: post ∧ Call edit (shown edit c₀ pre) p e changed post

/-- The process looks at the file as it was when it opened it. -/
def Opened (edit : ι → List α → Option (List α)) (c₀ : Option (List α)) (es : List (Event α ι π)) (p : π)
    (text : Option (List α)) : Prop :=
  ∃ pre post, es = pre ++ .view p :: post ∧ (∀ ev ∈ post, ¬ev.Begins p) ∧ text = shown edit c₀ pre

/-- What the past says of a process that is there. -/
def Phase.Tells (edit : ι → List α → Option (List α)) (c₀ : Option (List α)) (es : List (Event α ι π)) (F : Files α)
    (p : π) : Phase α ι → Prop
  | .idle => True
  | .locked e | .reading e _ | .changing e _ | .writing e _ _ => Called edit c₀ es p e none
  | .ended e b => Called edit c₀ es p e (some b)
  | .viewing i => Opened edit c₀ es p (i.map F.data)

theorem last_concat (h : ∀ ev ∈ es, ¬ev.Begins p) (hev : ¬ev.Begins p) : ∀ ev' ∈ es ++ [ev], ¬ev'.Begins p := by
  intro ev' hev'
  cases List.mem_append.mp hev' with
  | inl hmem => exact h ev' hmem
  | inr hmem => rwa [List.mem_singleton.mp hmem]

theorem called_acquire {e : ι} : Called edit c₀ (es ++ [.acquire p e]) p e none :=
  ⟨es, [], rfl, { last := nofun, published := rfl, change := nofun, noChange := nofun }⟩

theorem Called.concat {e : ι} {changed : Option Bool} (h : Called edit c₀ es p e changed) (hev : ¬ev.Begins p)
    (hpub : ev.published = none) : Called edit c₀ (es ++ [ev]) p e changed := by
  obtain ⟨pre, post, rfl, hcall⟩ := h
  exact ⟨pre, post ++ [ev], by simp,
    { last := last_concat hcall.last hev
      published := by simp [List.filterMap_append, hcall.published, hpub]
      change := hcall.change
      noChange := fun h => (hcall.noChange h).imp id fun h => ⟨List.mem_append_left _ h.1, h.2⟩ }⟩

/-- The change is published, or there is none to make. -/
theorem Called.finish {e : ι} {b : Bool} (h : Called edit c₀ es p e none) (hev : ¬ev.Begins p)
    (hpub : ev.published = if b then some e else none)
    (hyes : b = true → (edit e ((shown edit c₀ es).getD [])).isSome)
    (hno : b = false → edit e ((shown edit c₀ es).getD []) = none ∨ (ev = .misread p ∧ edit e [] = none)) :
    Called edit c₀ (es ++ [ev]) p e (some b) := by
  obtain ⟨pre, post, rfl, hcall⟩ := h
  have hnone : (Event.acquire p e :: post).filterMap Event.published = [] := hcall.published
  rw [shown_append hnone] at hyes hno
  refine ⟨pre, post ++ [ev], by simp,
    { last := last_concat hcall.last hev
      published := ?_
      change := fun h => hyes (Option.some.inj h)
      noChange := fun h => (hno (Option.some.inj h)).imp id fun h => ⟨?_, h.2⟩ }⟩
  · rw [List.filterMap_append, hcall.published]
    cases b with
    | true => simp [hpub]
    | false => simp [hpub]
  · exact List.mem_append_right _ (List.mem_singleton.mpr h.1.symm)

theorem Opened.concat {text : Option (List α)} (h : Opened edit c₀ es p text) (hev : ¬ev.Begins p) :
    Opened edit c₀ (es ++ [ev]) p text := by
  obtain ⟨pre, post, rfl, hlast, htext⟩ := h
  exact ⟨pre, post ++ [ev], by simp, last_concat hlast hev, htext⟩

/-- Not of the process, so it does not begin anything of it. -/
theorem Event.not_begins (h : ev.proc ≠ q) : ¬ev.Begins q := by
  rintro (rfl | ⟨e, rfl⟩)
  · exact h rfl
  · exact h rfl

/-- Another process goes on. -/
theorem Phase.Tells.other {phase : Phase α ι} {F' : Files α} (h : phase.Tells edit c₀ es F q) (hok : phase.Ok edit F)
    (hev : ev.proc ≠ q) (hkeeps : F.Keeps F') (hpub : phase.holds = true → ev.published = none) :
    phase.Tells edit c₀ (es ++ [ev]) F' q := by
  have hbegins := Event.not_begins hev
  cases phase with
  | idle => trivial
  | viewing i =>
    have hsame : i.map F'.data = i.map F.data := by
      cases i with
      | none => rfl
      | some j => exact congrArg some (hkeeps j (hok j rfl)).2
    exact (hsame ▸ Opened.concat h hbegins : Opened edit c₀ (es ++ [ev]) q (i.map F'.data))
  | locked e | reading e i | changing e text | writing e i rest => exact Called.concat h hbegins (hpub rfl)
  | ended e b => exact Called.concat h hbegins (hpub rfl)

variable [DecidableEq π] {s s' : Sys α ι π}

theorem Moves.keeps (h : Moves edit s ev s') (hI : Inv edit s) : s.files.Keeps s'.files := by
  cases h with
  | openTemp => exact Files.keeps_openTemp
  | @write p e i rest n hphase =>
    have hok := hI.phase p
    rw [hphase] at hok
    exact Files.keeps_append hok.1
  | publish hphase hrename => exact Files.keeps_rename hrename
  | _ => exact .refl _

theorem Moves.content (h : Moves edit s ev s') (hI : Inv edit s) :
    s'.files.content = (ev.published.toList).foldl (apply edit) s.files.content := by
  cases h with
  | openTemp => exact Files.keeps_openTemp.content hI.files Files.openTemp_main
  | @write p e i rest n hphase =>
    have hok := hI.phase p
    rw [hphase] at hok
    exact (Files.keeps_append hok.1).content hI.files rfl
  | @publish p e i files hphase hrename =>
    have hok := hI.phase p
    rw [hphase] at hok
    obtain ⟨htemp, hedit⟩ := hok
    rw [Files.rename_eq htemp] at hrename
    cases hrename
    rw [List.append_nil] at hedit
    show some (s.files.data i) = apply edit s.files.content e
    unfold apply
    rw [hedit]
  | _ => rfl

/-- The process itself goes on. -/
theorem Moves.tells_self (h : Moves edit s ev s') (hI : Inv edit s) (hcontent : s.files.content = shown edit c₀ es)
    (htells : (s.phase ev.proc).Tells edit c₀ es s.files ev.proc) :
    (s'.phase ev.proc).Tells edit c₀ (es ++ [ev]) s'.files ev.proc := by
  have hok := hI.phase ev.proc
  cases h with
  | @acquire p e hphase hlock =>
    rw [Event.proc, Sys.to_phase_self]
    exact called_acquire
  | @openFile p e hphase =>
    rw [Event.proc, hphase] at htells
    rw [Event.proc, Sys.to_phase_self]
    exact Called.concat htells (by rintro (h | ⟨_, h⟩) <;> cases h) rfl
  | @change p e i text hphase hedit =>
    rw [Event.proc, hphase] at htells
    rw [Event.proc, Sys.to_phase_self]
    exact Called.concat htells (by rintro (h | ⟨_, h⟩) <;> cases h) rfl
  | @unchanged p e i hphase hedit =>
    rw [Event.proc, hphase] at htells hok
    rw [Event.proc, Sys.to_phase_self]
    obtain rfl : i = s.files.main := hok
    -- nothing to change: the text shown is the one edited
    exact Called.finish htells (by rintro (h | ⟨_, h⟩) <;> cases h) rfl nofun fun _ => .inl (hcontent ▸ hedit)
  | @misread p e hphase hedit =>
    have hcalled : Called edit c₀ es p e none := by
      rw [Event.proc] at htells
      cases hphase with
      | inl h =>
        rw [h] at htells
        exact htells
      | inr h =>
        obtain ⟨i, h⟩ := h
        rw [h] at htells
        exact htells
    rw [Event.proc, Sys.to_phase_self]
    exact hcalled.finish (by rintro (h | ⟨_, h⟩) <;> cases h) rfl nofun fun _ => .inr ⟨rfl, hedit⟩
  | @openTemp p e text hphase =>
    rw [Event.proc, hphase] at htells
    rw [Event.proc, Sys.to_phase_self]
    exact Called.concat htells (by rintro (h | ⟨_, h⟩) <;> cases h) rfl
  | @write p e i rest n hphase =>
    rw [Event.proc, hphase] at htells
    rw [Event.proc, Sys.to_phase_self]
    exact Called.concat htells (by rintro (h | ⟨_, h⟩) <;> cases h) rfl
  | @publish p e i files hphase hrename =>
    rw [Event.proc, hphase] at htells hok
    rw [Event.proc, Sys.to_phase_self]
    refine Called.finish htells (by rintro (h | ⟨_, h⟩) <;> cases h) rfl (fun _ => ?_) nofun
    -- the text published was edited from the one shown
    rw [← hcontent, hok.2]
    rfl
  | @release p e b hphase =>
    rw [Event.proc, Sys.to_phase_self]
    trivial
  | @stop p =>
    rw [Event.proc, Sys.to_phase_self]
    trivial
  | @view p hphase =>
    rw [Event.proc, Sys.to_phase_self]
    exact ⟨es, [], rfl, nofun, hcontent⟩
  | @look p i hphase =>
    rw [Event.proc, Sys.to_phase_self]
    trivial

/-! ## Runs -/

/-- Nobody has the lock, or the file open. -/
structure Quiet (s : Sys α ι π) : Prop where
  files : s.files.WellFormed
  lock : s.lock = none
  phase : ∀ p, s.phase p = .idle

/-- What the past of a run says of its state. -/
structure Past (edit : ι → List α → Option (List α)) (c₀ : Option (List α)) (es : List (Event α ι π))
    (s : Sys α ι π) : Prop where
  inv : Inv edit s
  content : s.files.content = shown edit c₀ es
  tells : ∀ p, (s.phase p).Tells edit c₀ es s.files p

omit [DecidableEq π] in
theorem Quiet.past (h : Quiet s) : Past edit s.files.content [] s where
  inv :=
    { files := h.files
      lock := fun p => by rw [h.lock, h.phase p]; exact iff_of_false nofun nofun
      phase := fun p => by rw [h.phase p]; trivial }
  content := rfl
  tells p := by rw [h.phase p]; trivial

theorem Moves.phase_other (h : Moves edit s ev s') (hq : ev.proc ≠ q) : s'.phase q = s.phase q := by
  cases h <;> exact Sys.to_phase_of_ne (Ne.symm hq)

/-- Who publishes has the lock. -/
theorem Moves.holds (h : Moves edit s ev s') (hpub : ev.published ≠ none) : (s.phase ev.proc).holds = true := by
  cases h with
  | publish hphase hrename =>
    rw [Event.proc, hphase]
    rfl
  | _ => exact (hpub rfl).elim

theorem Moves.past (h : Moves edit s ev s') (hpast : Past edit c₀ es s) : Past edit c₀ (es ++ [ev]) s' where
  inv := h.inv hpast.inv
  content := by
    rw [h.content hpast.inv, hpast.content]
    unfold shown
    rw [List.filterMap_append, List.foldl_append]
    cases hpub : ev.published with
    | none => simp [hpub]
    | some e => simp [hpub]
  tells q := by
    by_cases hq : ev.proc = q
    · subst hq
      exact h.tells_self hpast.inv hpast.content (hpast.tells _)
    · rw [h.phase_other hq]
      refine (hpast.tells q).other (hpast.inv.phase q) hq (h.keeps hpast.inv) fun hholds => ?_
      -- Two cannot have the lock.
      by_contra hpub
      have halone := hpast.inv.alone (h.holds hpub) (Ne.symm hq)
      rw [hholds] at halone
      cases halone

variable [DecidableEq α] [DecidableEq ι]

theorem run_past (hs : Quiet s) (hrun : Lts.run (step edit) s es = some s') : Past edit s.files.content es s' :=
  Lts.run_history hs.past (fun _ _ _ _ _ hpast hstep => (step_moves hstep).past hpast) hrun

/-- The file is what the published changes make of it, one after the other. -/
theorem run_content (hs : Quiet s) (hrun : Lts.run (step edit) s es = some s') :
    s'.files.content = shown edit s.files.content es := (run_past hs hrun).content

/-- Who looks at the file sees it as it was when it was opened. -/
theorem run_look {text : Option (List α)} (hs : Quiet s)
    (hrun : Lts.run (step edit) s (es ++ [.look p text]) = some s') : Opened edit s.files.content es p text := by
  obtain ⟨t, ht, hlast⟩ := Lts.run_append_iff.mp hrun
  obtain ⟨u, hu, -⟩ := Lts.run_cons_iff.mp hlast
  have htells := (run_past hs ht).tells p
  cases step_moves hu with
  | look hphase =>
    rw [hphase] at htells
    exact htells

/-- A call that returns has published its change, and no other came in between, or had none to make. -/
theorem run_release {b : Bool} (hs : Quiet s)
    (hrun : Lts.run (step edit) s (es ++ [.release p b]) = some s') : ∃ e, Called edit s.files.content es p e (some b) := by
  obtain ⟨t, ht, hlast⟩ := Lts.run_append_iff.mp hrun
  obtain ⟨u, hu, -⟩ := Lts.run_cons_iff.mp hlast
  have htells := (run_past hs ht).tells p
  cases step_moves hu with
  | @release _ e _ hphase =>
    rw [hphase] at htells
    exact ⟨e, htells⟩

end History

end Replace
