-- SUMMARY: The file of dnat under its lock: removals by threads and commands of the agent, changes by dnat itself, and who reads meanwhile.
import Ipgate.Agent.Dnat.Key
import Ipgate.Lib.Replace

/-!
# The lock of dnat

The agent and dnat change the same file, each under the lock, by writing a temporary file and
renaming it. The agent may remove rules from several threads, and by commands beside the
service. It lists rules without the lock.
-/

namespace Ipgate.Dnat

open Replace

/-! ## Changes of the file -/

/-- What changes the file: the agent removes the rules with a key, and dnat has ways of its own. -/
inductive ConfChange (δ : Type) where
  | removePrefix (key : String)
  | own (change : δ)
  deriving DecidableEq

abbrev ConfSys (δ π : Type) := Sys UInt8 (ConfChange δ) π

abbrev ConfEvent (δ π : Type) := Replace.Event UInt8 (ConfChange δ) π

def confBytes (text : String) : List UInt8 := text.toUTF8.data.toList

/-- The text that is read of the file. It is empty where there is no file, or no text in it. -/
def confText (content : Option (List UInt8)) : String :=
  (String.fromUTF8? ⟨(content.getD []).toArray⟩).getD ""

/-- What the agent writes to remove the rules with the key, if there are any. -/
def withoutPrefix (key : String) (bytes : List UInt8) : Option (List UInt8) :=
  let (text, removed) := removeRuleLines (confText (some bytes)) key
  if removed then some (confBytes text) else none

variable {δ : Type}

/-- The key of a removal. -/
def ConfChange.key : ConfChange δ → Option String
  | .removePrefix key => some key
  | .own _ => none

/-- What is written for a change, if anything. -/
def rewritten (own : δ → List UInt8 → Option (List UInt8)) : ConfChange δ → List UInt8 → Option (List UInt8)
  | .removePrefix key => withoutPrefix key
  | .own change => own change

/-! ## One removal -/

section Removal

variable {own : δ → List UInt8 → Option (List UInt8)} {key : String} {content : Option (List UInt8)}

theorem confText_confBytes (text : String) : confText (some (confBytes text)) = text := by
  unfold confText confBytes
  rw [Option.getD_some, fromUTF8_toUTF8, Option.getD_some]

theorem withoutPrefix_eq : withoutPrefix key (content.getD []) = if (removeRuleLines (confText content) key).2 then
    some (confBytes (removeRuleLines (confText content) key).1) else none := rfl

theorem withoutPrefix_isSome : (withoutPrefix key (content.getD [])).isSome ↔
    (removeRuleLines (confText content) key).2 = true := by
  rw [withoutPrefix_eq]
  split
  · next h => exact iff_of_true rfl h
  · next h => exact iff_of_false (by simp) h

/-- The text after a removal. -/
theorem confText_apply : confText (apply (rewritten own) content (.removePrefix key)) =
    if (removeRuleLines (confText content) key).2 then (removeRuleLines (confText content) key).1
    else confText content := by
  unfold Replace.apply rewritten
  dsimp only
  rw [withoutPrefix_eq]
  cases (removeRuleLines (confText content) key).2 with
  | true => exact confText_confBytes _
  | false => rfl

/-- A removal does what it would if nobody else were there. -/
theorem removePrefix_alone {b : Bool} {read : Except String Unit} (hyes : b = true → read = .ok ())
    (hfound : read = .ok () → (b = true ↔ (withoutPrefix key (content.getD [])).isSome)) :
    removePrefix ⟨.ok (), read, .ok ()⟩ key (confText content) =
      (.ok b, confText (if b then apply (rewritten own) content (.removePrefix key) else content)) := by
  cases read with
  | error e =>
    cases b with
    | false => exact removePrefix_unreadable rfl rfl
    | true => cases hyes rfl
  | ok =>
    have hiff := (hfound rfl).trans withoutPrefix_isSome
    cases b with
    | true =>
      have hremoved := hiff.mp rfl
      rw [if_pos rfl, confText_apply, if_pos hremoved]
      simp [removePrefix, Except.isOk, Except.toBool, hremoved]
    | false =>
      have hkept : (removeRuleLines (confText content) key).2 = false := by
        rw [Bool.eq_false_iff]
        exact fun h => Bool.false_ne_true (hiff.mpr h)
      rw [if_neg Bool.false_ne_true]
      simp [removePrefix, Except.isOk, Except.toBool, hkept]

/-- Nothing but rules with the keys is gone. -/
structure Left (keys : List String) (text text' : String) : Prop where
  rules : parseConf text' = (parseConf text).filter fun r => r.prefixKey ∉ keys
  remarks : remarks text' = remarks text

theorem left_apply {content : Option (List UInt8)} :
    Left [key] (confText content) (confText (apply (rewritten own) content (.removePrefix key))) := by
  rw [confText_apply]
  cases hremoved : (removeRuleLines (confText content) key).2 with
  | true =>
    exact
      { rules := by
          rw [if_pos rfl, parseConf_removeRuleLines]
          exact List.filter_congr fun r _ => by simp
        remarks := by rw [if_pos rfl, remarks_removeRuleLines] }
  | false =>
    have hnone : ∀ r ∈ parseConf (confText content), r.prefixKey ≠ key := fun r hr hkey => by
      have := removeRuleLines_removed.mpr ⟨r, hr, hkey⟩
      rw [hremoved] at this
      cases this
    exact
      { rules := by
          rw [if_neg nofun, List.filter_eq_self.mpr fun r hr => ?_]
          simpa using hnone r hr
        remarks := by rw [if_neg nofun] }

theorem Left.trans {keys keys' : List String} {text text' text'' : String} (h : Left keys text text')
    (h' : Left keys' text' text'') : Left (keys ++ keys') text text'' where
  rules := by
    rw [h'.rules, h.rules, List.filter_filter]
    exact List.filter_congr fun r _ => by simp [Bool.and_comm]
  remarks := h'.remarks.trans h.remarks

theorem left_foldl (changes : List (ConfChange δ)) (content : Option (List UInt8))
    (honly : ∀ c ∈ changes, ∃ key, c = .removePrefix key) :
    Left (changes.filterMap ConfChange.key) (confText content)
      (confText (changes.foldl (apply (rewritten own)) content)) := by
  induction changes generalizing content with
  | nil => exact { rules := by simp, remarks := rfl }
  | cons c changes ih =>
    obtain ⟨key, rfl⟩ := honly _ (List.mem_cons_self ..)
    exact left_apply.trans (ih _ fun c hc => honly c (List.mem_cons_of_mem _ hc))

end Removal

/-! ## Everybody at once -/

section Runs

variable {π : Type} {own : δ → List UInt8 → Option (List UInt8)} {c₀ : Option (List UInt8)}
variable {es : List (ConfEvent δ π)} {p : π} {b : Bool} {key : String}

/-- A removal that has ended gave back what it would give if nobody else were there, and left the
file as it would. -/
def AsAlone (own : δ → List UInt8 → Option (List UInt8)) (c₀ : Option (List UInt8))
    (es : List (ConfEvent δ π)) (p : π) (b : Bool) : Prop :=
  ∃ c pre post, es = pre ++ .acquire p c :: post ∧ (∀ ev ∈ post, ¬ev.Begins p) ∧
    ∀ key, c = .removePrefix key → ∃ read, (read = .ok () ∨ .misread p ∈ post) ∧
      removePrefix ⟨.ok (), read, .ok ()⟩ key (confText (shown (rewritten own) c₀ pre)) =
        (.ok b, confText (shown (rewritten own) c₀ es))

/-- The keys whose rules have been removed. -/
def removedKeys (es : List (ConfEvent δ π)) : List String :=
  (es.filterMap Replace.Event.published).filterMap ConfChange.key

theorem shown_called {c : ConfChange δ} {pre post : List (ConfEvent δ π)}
    (hcall : Call (rewritten own) (shown (rewritten own) c₀ pre) p c (some b) post) :
    shown (rewritten own) c₀ (pre ++ .acquire p c :: post) =
      if b then apply (rewritten own) (shown (rewritten own) c₀ pre) c else shown (rewritten own) c₀ pre := by
  unfold shown
  rw [List.filterMap_append, List.foldl_append, List.filterMap_cons_none rfl, hcall.published]
  cases b with
  | true => rfl
  | false => rfl

theorem asAlone_of_called {c : ConfChange δ} (h : Called (rewritten own) c₀ es p c (some b)) :
    AsAlone own c₀ es p b := by
  obtain ⟨pre, post, rfl, hcall⟩ := h
  refine ⟨c, pre, post, rfl, hcall.last, ?_⟩
  rintro key rfl
  rw [shown_called hcall]
  by_cases hread : b = true ∨ withoutPrefix key ((shown (rewritten own) c₀ pre).getD []) = none
  · refine ⟨.ok (), .inl rfl, removePrefix_alone (fun _ => rfl) fun _ => ?_⟩
    cases b with
    | true => exact iff_of_true rfl (hcall.change rfl)
    | false =>
      have hnone := hread.resolve_left nofun
      exact iff_of_false nofun (by rw [hnone]; nofun)
  · obtain ⟨hb, hsome⟩ := not_or.mp hread
    obtain rfl : b = false := Bool.eq_false_iff.mpr hb
    have hmis := (hcall.noChange rfl).resolve_left hsome
    exact ⟨.error "", .inr hmis.1, removePrefix_alone nofun nofun⟩

variable [DecidableEq δ] [DecidableEq π]

/-- However the agent and dnat come in each other's way, and wherever one of them fails or is
killed: the file is what the changes that were published make of it, one after the other. Who
looks at it sees what it was as a whole when it was opened. Each removal that has ended did what
it would if nobody else were there, on what the changes before it had made. -/
theorem conf_changes_in_order (own : δ → List UInt8 → Option (List UInt8)) (s s' : ConfSys δ π)
    (es : List (ConfEvent δ π)) (hs : Quiet s) (hrun : Lts.run (step (rewritten own)) s es = some s') :
    s'.files.content = shown (rewritten own) s.files.content es ∧
    (∀ pre p text post, es = pre ++ .look p text :: post → Opened (rewritten own) s.files.content pre p text) ∧
    ∀ pre p b post, es = pre ++ .release p b :: post → AsAlone own s.files.content pre p b := by
  have hprefix : ∀ pre ev post, es = pre ++ ev :: post → ∃ t, Lts.run (step (rewritten own)) s (pre ++ [ev]) = some t := by
    rintro pre ev post rfl
    rw [List.append_cons, Lts.run_append_iff] at hrun
    obtain ⟨t, ht, -⟩ := hrun
    exact ⟨t, ht⟩
  refine ⟨run_content hs hrun, fun pre p text post hes => ?_, fun pre p b post hes => ?_⟩
  · obtain ⟨t, ht⟩ := hprefix _ _ _ hes
    exact run_look hs ht
  · obtain ⟨t, ht⟩ := hprefix _ _ _ hes
    obtain ⟨c, hcalled⟩ := run_release hs ht
    exact asAlone_of_called hcalled

/-- Two rules, and nobody there. -/
def twoRules : ConfSys Empty Bool where
  files := ⟨fun _ => confBytes "443>eth0>192.0.2.1:8443>auto\n53>eth0>192.0.2.2:53>auto\n", 1, some 0, none⟩
  lock := none
  phase _ := .idle

/-- A removal is killed while it writes, another one goes through, and who opened the file before
reads it to the end. -/
def killedThenRemoved : List (ConfEvent Empty Bool) :=
  [.acquire true (.removePrefix "53>eth0>"), .openFile true, .read true, .openTemp true, .write true 7, .stop true,
    .view false, .acquire true (.removePrefix "443>eth0>"), .openFile true, .read true, .openTemp true, .write true 9,
    .write true 99, .publish true (.removePrefix "443>eth0>"),
    .look false (some (confBytes "443>eth0>192.0.2.1:8443>auto\n53>eth0>192.0.2.2:53>auto\n")), .release true true]

theorem quiet_twoRules : Quiet twoRules where
  files :=
    { main := fun i h => by cases h; exact ⟨Nat.one_pos, nofun⟩
      temp := nofun }
  lock := rfl
  phase _ := rfl

/-- A host where dnat itself does nothing. -/
def noOwn (change : Empty) : List UInt8 → Option (List UInt8) := change.elim

theorem run_killedThenRemoved : (Lts.run (step (rewritten noOwn)) twoRules killedThenRemoved).isSome = true := by
  decide +kernel

theorem changes_in_order_killed : ∃ s' : ConfSys Empty Bool,
    s'.files.content = shown (rewritten noOwn) twoRules.files.content killedThenRemoved ∧
    (∀ pre p text post, killedThenRemoved = pre ++ .look p text :: post →
      Opened (rewritten noOwn) twoRules.files.content pre p text) ∧
    ∀ pre p b post, killedThenRemoved = pre ++ .release p b :: post → AsAlone noOwn twoRules.files.content pre p b :=
  (Option.isSome_iff_exists.mp run_killedThenRemoved).imp fun s' hrun =>
    conf_changes_in_order noOwn twoRules s' killedThenRemoved quiet_twoRules hrun

/-- While dnat itself changes nothing: whatever threads and commands of the agent remove, in
whatever order and wherever they fail, the rules of the file are those it had, without the ones of
the keys removed, in the order they had, and the comments are there still. No removal is lost, and
none brings back what another has removed. -/
theorem rules_left (own : δ → List UInt8 → Option (List UInt8)) (s s' : ConfSys δ π)
    (es : List (ConfEvent δ π)) (hs : Quiet s) (hrun : Lts.run (step (rewritten own)) s es = some s')
    (honly : ∀ c ∈ es.filterMap Replace.Event.published, ∃ key, c = .removePrefix key) :
    Left (removedKeys es) (confText s.files.content) (confText s'.files.content) := by
  rw [run_content hs hrun]
  exact left_foldl _ _ honly

theorem rules_left_killed : ∃ s' : ConfSys Empty Bool,
    Left (removedKeys killedThenRemoved) (confText twoRules.files.content) (confText s'.files.content) :=
  (Option.isSome_iff_exists.mp run_killedThenRemoved).imp fun s' hrun =>
    rules_left noOwn twoRules s' killedThenRemoved quiet_twoRules hrun fun _ hc =>
      ⟨"443>eth0>", List.mem_singleton.mp hc⟩

end Runs

end Ipgate.Dnat
