-- SUMMARY: The state file of a process that may fail or be killed at any point of a save: each save is made as a whole, or not at all.
import Ipgate.Agent.Api.Disk
import Ipgate.Lib.Replace

/-!
# Saving the state

A save writes the state to a temporary file and renames that over the state file. The process
may be killed in the middle, and loads the state file when it starts again. The disk of the
requests and loops, which takes a state as a whole or refuses it, is what this comes to.
-/

namespace Ipgate.Persist

open Replace

/-! ## The process -/

/-- The text of a state, and reading it. -/
structure Codec where
  encode : State → List UInt8
  decode : List UInt8 → Option State

def Codec.RoundTrip (C : Codec) (t : State) : Prop := C.decode (C.encode t) = some t

/-- The state in the file, unless that is none. Where there is no file, it is the empty one. -/
def load (C : Codec) (F : Files UInt8) : Option State :=
  match F.content with
  | some bytes => C.decode bytes
  | none => some State.default

structure Process where
  files : Files UInt8
  /-- What is in memory, if the process runs. -/
  memory : Option State
  /-- The inode that a save writes to, and what is left to write. -/
  writing : Option (ℕ × List UInt8)

inductive Event where
  | start
  /-- A request or a loop has changed what is in memory. -/
  | change (t : State)
  | openTemp
  /-- At most so many bytes of what is left are written. -/
  | write (n : ℕ)
  | rename
  /-- A call of the save fails. -/
  | fail (error : String)
  | kill

def step (C : Codec) (s : Process) : Event → Option Process
  | .start =>
    match s.memory with
    | none => (load C s.files).map fun t => { s with memory := some t }
    | some _ => none
  -- The store is locked as long as it is saved.
  | .change t =>
    match s.memory, s.writing with
    | some _, none => some { s with memory := some t }
    | _, _ => none
  | .openTemp =>
    match s.memory, s.writing with
    | some t, none => some { s with files := s.files.openTemp.2, writing := some (s.files.openTemp.1, C.encode t) }
    | _, _ => none
  | .write n =>
    match s.writing with
    | some (i, rest) => some { s with files := s.files.append i (rest.take n), writing := some (i, rest.drop n) }
    | none => none
  | .rename =>
    match s.writing with
    | some (_, []) => s.files.rename.map fun files => { s with files, writing := none }
    | _ => none
  | .fail _ =>
    match s.writing with
    | some _ => some { s with writing := none }
    | none => none
  | .kill => some { s with memory := none, writing := none }

/-! ## The same where a save is one step -/

/-- How a save ends with the event. -/
def Event.answer : Event → Option (Except String Unit)
  | .rename => some (.ok ())
  | .fail e => some (.error e)
  | _ => none

/-- What is in memory, and the disk, after the event. -/
def atomically (p : Option State × Disk) : Event → Option State × Disk
  | .start => (some p.2.written, p.2)
  | .change t => (some t, p.2)
  | .rename | .fail _ => (p.1, (p.2.save (p.1.getD State.default)).2)
  | .kill => (none, p.2)
  | .openTemp | .write _ => p

/-! ## What holds at any time -/

section Invariant

variable {C : Codec} {s s' : Process} {d : State} {e : Event}

/-- The file has the state, and what is written is the state in memory. -/
structure Inv (C : Codec) (d : State) (s : Process) : Prop where
  files : s.files.WellFormed
  load : load C s.files = some d
  written : C.RoundTrip d
  memory : ∀ t, s.memory = some t → C.RoundTrip t
  writing : ∀ i rest, s.writing = some (i, rest) →
    s.files.temp = some i ∧ ∃ t, s.memory = some t ∧ s.files.data i ++ rest = C.encode t

theorem load_congr {F F' : Files UInt8} (h : F'.content = F.content) : load C F' = load C F := by
  unfold load
  rw [h]

section Events

variable {t : State} {i n : ℕ} {rest : List UInt8}

theorem Inv.started (hI : Inv C d s) (hmemory : s.memory = none) : Inv C d { s with memory := some d } where
  files := hI.files
  load := hI.load
  written := hI.written
  memory _ ht := Option.some.inj ht ▸ hI.written
  writing i rest h := by
    obtain ⟨-, t, ht, -⟩ := hI.writing i rest h
    rw [hmemory] at ht
    cases ht

theorem Inv.changed (hI : Inv C d s) (ht : C.RoundTrip t) (hwriting : s.writing = none) :
    Inv C d { s with memory := some t } where
  files := hI.files
  load := hI.load
  written := hI.written
  memory _ h := Option.some.inj h ▸ ht
  writing i rest h := by
    rw [hwriting] at h
    cases h

theorem Inv.openedTemp (hI : Inv C d s) (hmemory : s.memory = some t) :
    Inv C d { s with files := s.files.openTemp.2, writing := some (s.files.openTemp.1, C.encode t) } := by
  have hcontent : s.files.openTemp.2.content = s.files.content :=
    Files.keeps_openTemp.content hI.files Files.openTemp_main
  refine { hI with files := hI.files.openTemp, load := ?_, writing := fun i rest h => ?_ }
  · rw [load_congr hcontent, hI.load]
  · cases h
    refine ⟨Files.openTemp_temp, t, hmemory, ?_⟩
    rw [Files.openTemp_data, List.nil_append]

theorem Inv.wrote (hI : Inv C d s) (hwriting : s.writing = some (i, rest)) :
    Inv C d { s with files := s.files.append i (rest.take n), writing := some (i, rest.drop n) } := by
  obtain ⟨htemp, t, hmemory, hdata⟩ := hI.writing i rest hwriting
  refine { hI with files := hI.files.append htemp, load := ?_, writing := fun j rest' h => ?_ }
  · rw [load_congr ((Files.keeps_append htemp).content hI.files rfl), hI.load]
  · cases h
    refine ⟨htemp, t, hmemory, ?_⟩
    rw [Files.append_data, List.append_assoc, List.take_append_drop, hdata]

/-- What has been written as a whole is the state of the file from now on. -/
theorem Inv.renamed {files : Files UInt8} (hI : Inv C d s) (hwriting : s.writing = some (i, []))
    (hrename : s.files.rename = some files) : ∃ t, s.memory = some t ∧ Inv C t { s with files, writing := none } := by
  obtain ⟨htemp, t, hmemory, hdata⟩ := hI.writing i [] hwriting
  rw [List.append_nil] at hdata
  have hround := hI.memory t hmemory
  have hfiles := hI.files.rename hrename
  obtain rfl := Option.some.inj ((Files.rename_eq htemp).symm.trans hrename)
  refine ⟨t, hmemory, { hI with files := hfiles, load := ?_, written := hround, writing := fun i rest h => ?_ }⟩
  · show C.decode (s.files.data i) = some t
    rw [hdata]
    exact hround
  · cases h

theorem Inv.failed (hI : Inv C d s) : Inv C d { s with writing := none } :=
  { hI with writing := fun _ _ h => by cases h }

theorem Inv.killed (hI : Inv C d s) : Inv C d { s with memory := none, writing := none } :=
  { hI with memory := fun _ h => (by cases h), writing := fun _ _ h => by cases h }

end Events

/-- One event, with the disk that takes a state as a whole. -/
theorem step_inv (hI : Inv C d s) (hround : ∀ t, e = .change t → C.RoundTrip t) (hstep : step C s e = some s')
    (more : List (Except String Unit)) :
    ∃ d', Inv C d' s' ∧ atomically (s.memory, ⟨d, e.answer.toList ++ more⟩) e = (s'.memory, ⟨d', more⟩) ∧
      (e ≠ .rename → d' = d) ∧ (e = .rename → s.memory = some d') := by
  cases e with
  | start =>
    simp only [step] at hstep
    split at hstep
    · next hmemory =>
      rw [hI.load, Option.map_some, Option.some.injEq] at hstep
      subst hstep
      exact ⟨d, hI.started hmemory, rfl, fun _ => rfl, fun h => by cases h⟩
    · cases hstep
  | change t =>
    simp only [step] at hstep
    split at hstep
    · next hwriting =>
      cases hstep
      exact ⟨d, hI.changed (hround t rfl) hwriting, rfl, fun _ => rfl, fun h => by cases h⟩
    · cases hstep
  | openTemp =>
    simp only [step] at hstep
    split at hstep
    · next t hmemory hwriting =>
      cases hstep
      exact ⟨d, hI.openedTemp hmemory, rfl, fun _ => rfl, fun h => by cases h⟩
    · cases hstep
  | write n =>
    simp only [step] at hstep
    split at hstep
    · next i rest hwriting =>
      cases hstep
      exact ⟨d, hI.wrote hwriting, rfl, fun _ => rfl, fun h => by cases h⟩
    · cases hstep
  | rename =>
    simp only [step] at hstep
    split at hstep
    · next i hwriting =>
      obtain ⟨files, hrename, rfl⟩ := Option.map_eq_some_iff.mp hstep
      -- only here the disk takes the state, all of it
      obtain ⟨t, hmemory, hinv⟩ := hI.renamed hwriting hrename
      refine ⟨t, hinv, ?_, fun h => (h rfl).elim, fun _ => hmemory⟩
      simp [atomically, Event.answer, hmemory, Disk.save]
    · cases hstep
  | fail error =>
    simp only [step] at hstep
    split at hstep
    · cases hstep
      exact ⟨d, hI.failed, rfl, fun _ => rfl, fun h => by cases h⟩
    · cases hstep
  | kill =>
    cases hstep
    exact ⟨d, hI.killed, rfl, fun _ => rfl, fun h => by cases h⟩

end Invariant

/-! ## Runs -/

section Runs

variable {C : Codec} {s s' : Process} {d : State} {es : List Event}

theorem run_inv (hI : Inv C d s) (hround : ∀ t, .change t ∈ es → C.RoundTrip t)
    (hrun : Lts.run (step C) s es = some s') (more : List (Except String Unit)) :
    ∃ d', Inv C d' s' ∧
      es.foldl atomically (s.memory, ⟨d, es.filterMap Event.answer ++ more⟩) = (s'.memory, ⟨d', more⟩) ∧
      (.rename ∉ es → d' = d) := by
  induction es generalizing s d with
  | nil =>
    cases hrun
    exact ⟨d, hI, rfl, fun _ => rfl⟩
  | cons e es ih =>
    obtain ⟨t, hstep, hrest⟩ := Lts.run_cons_iff.mp hrun
    obtain ⟨d₁, hI₁, hfirst, hsame, -⟩ := step_inv hI (fun t h => hround t (h ▸ List.mem_cons_self ..)) hstep
      (es.filterMap Event.answer ++ more)
    obtain ⟨d', hI', hlast, hsame'⟩ := ih hI₁ (fun t h => hround t (List.mem_cons_of_mem _ h)) hrest
    refine ⟨d', hI', ?_, fun hno => ?_⟩
    · have hanswers : (e :: es).filterMap Event.answer ++ more =
          e.answer.toList ++ (es.filterMap Event.answer ++ more) := by
        cases h : e.answer with
        | none => simp [h]
        | some a => simp [h]
      rw [hanswers, List.foldl_cons, hfirst, hlast]
    · obtain ⟨he, hes⟩ := not_or.mp (mt List.mem_cons.mpr hno)
      rw [hsame' hes, hsame (Ne.symm he)]

/-- The process is not there, and the file has the state, or there is none and it is the empty one. -/
structure Stopped (C : Codec) (d : State) (s : Process) : Prop where
  files : s.files.WellFormed
  content : s.files.content = some (C.encode d) ∨ (s.files.content = none ∧ d = State.default)
  memory : s.memory = none
  writing : s.writing = none

theorem Stopped.inv (h : Stopped C d s) (hround : C.RoundTrip d) : Inv C d s where
  files := h.files
  load := by
    unfold Persist.load
    cases h.content with
    | inl hsome =>
      rw [hsome]
      exact hround
    | inr hnone =>
      rw [hnone.1, hnone.2]
  written := hround
  memory t ht := by
    rw [h.memory] at ht
    cases ht
  writing i rest hwriting := by
    rw [h.writing] at hwriting
    cases hwriting

/-- However often the process fails or is killed, and at whatever point of a save: it is as if each
save took the state as a whole, or not at all, and the state file can be loaded at any time. What
was in memory at the last save that came to the rename is what is loaded. -/
theorem saves_are_atomic (C : Codec) (d : State) (s s' : Process) (es : List Event) (hs : Stopped C d s)
    (hround : ∀ t, t = d ∨ .change t ∈ es → C.RoundTrip t) (hrun : Lts.run (step C) s es = some s') :
    s'.memory = (es.foldl atomically (none, ⟨d, es.filterMap Event.answer⟩)).1 ∧
    load C s'.files = some (es.foldl atomically (none, ⟨d, es.filterMap Event.answer⟩)).2.written ∧
    (.rename ∉ es → load C s'.files = some d) ∧
    ∀ pre post u, es = pre ++ .rename :: post → .rename ∉ post → Lts.run (step C) s pre = some u →
      load C s'.files = u.memory := by
  have hI := hs.inv (hround d (.inl rfl))
  obtain ⟨d', hI', hatomic, hsame⟩ := run_inv hI (fun t h => hround t (.inr h)) hrun []
  rw [List.append_nil, hs.memory] at hatomic
  rw [hatomic]
  refine ⟨rfl, hI'.load, fun hno => hsame hno ▸ hI'.load, fun pre post u hes hno hpre => ?_⟩
  subst hes
  obtain ⟨v, hv, hrest⟩ := Lts.run_append_iff.mp hrun
  obtain rfl : u = v := Option.some.inj (hpre.symm.trans hv)
  obtain ⟨w, hw, hpost⟩ := Lts.run_cons_iff.mp hrest
  obtain ⟨d₁, hI₁, -⟩ := run_inv hI (fun t h => hround t (.inr (List.mem_append_left _ h))) hpre []
  obtain ⟨d₂, hI₂, -, -, hmemory⟩ := step_inv hI₁ (fun _ h => by cases h) hw []
  have hlast : ∀ t, .change t ∈ post → C.RoundTrip t := fun t h =>
    hround t (.inr (List.mem_append_right _ (List.mem_cons_of_mem _ h)))
  obtain ⟨d₃, hI₃, -, hkept⟩ := run_inv hI₂ hlast hpost []
  rw [hI₃.load, hkept hno, hmemory rfl]

/-! ### A save that is killed, and one that is not -/

/-- The text of a state that is empty but for one flag. -/
def stateText (sshAllowlistOnly : String) : List UInt8 :=
  ("\x7b\n  \"entries\": [],\n  \"devices\": [],\n  \"revision\": 0,\n  \"forwards\": [],\n" ++
    "  \"forward_revision\": 0,\n  \"resolved\": \x7b\x7d,\n  \"ssh_allowlist_only\": " ++ sshAllowlistOnly ++
    ",\n  \"forward_allowlist_only\": false,\n  \"public_ports\": []\n\x7d").toUTF8.data.toList

/-- The empty state with SSH closed. -/
def closedState : State := { State.default with sshAllowlistOnly := true }

/-- A codec for these two. -/
def twoStates : Codec where
  encode t := stateText (if t.sshAllowlistOnly then "true" else "false")
  decode bytes :=
    if bytes = stateText "true" then some closedState
    else if bytes = stateText "false" then some State.default else none

theorem twoStates_default : twoStates.RoundTrip State.default := by
  have hencode : twoStates.encode State.default = stateText "false" := congrArg stateText (if_neg Bool.false_ne_true)
  have hne : stateText "false" ≠ stateText "true" := by decide +kernel
  unfold Codec.RoundTrip
  rw [hencode]
  simp only [twoStates, if_neg hne, if_true]

theorem twoStates_closedState : twoStates.RoundTrip closedState := by
  have hencode : twoStates.encode closedState = stateText "true" := congrArg stateText (if_pos rfl)
  unfold Codec.RoundTrip
  rw [hencode]
  simp only [twoStates, if_true]

def freshProcess : Process := ⟨⟨fun _ => [], 0, none, none⟩, none, none⟩

def killedThenSaved : List Event :=
  [.start, .change closedState, .openTemp, .write 40, .kill, .start, .change closedState, .openTemp, .write 40, .write 400,
    .rename, .kill]

theorem saves_are_atomic_killed : ∃ s', Lts.run (step twoStates) freshProcess killedThenSaved = some s' ∧
    load twoStates s'.files = some (killedThenSaved.foldl atomically (none, ⟨State.default,
      killedThenSaved.filterMap Event.answer⟩)).2.written := by
  have hruns : (Lts.run (step twoStates) freshProcess killedThenSaved).isSome = true := by decide +kernel
  obtain ⟨s', hrun⟩ := Option.isSome_iff_exists.mp hruns
  refine ⟨s', hrun, (saves_are_atomic twoStates State.default freshProcess s' killedThenSaved
    { files := { main := nofun, temp := nofun }, content := .inr ⟨rfl, rfl⟩, memory := rfl, writing := rfl }
    (fun t ht => ?_) hrun).2.1⟩
  cases ht with
  | inl h => exact h ▸ twoStates_default
  | inr h =>
    have hclosed : t = closedState := by simpa [killedThenSaved] using h
    exact hclosed ▸ twoStates_closedState

end Runs

end Ipgate.Persist
