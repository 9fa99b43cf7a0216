-- SUMMARY: sshd.rs: the block that the agent puts into the configuration of sshd, and which lines of the operator survive an edit.
import Ipgate.Lib.Blocks
import Ipgate.Lib.Text

/-!
# The configuration of sshd

The agent has a block of its own at the top of the configuration, between two marks, as the
first value of a keyword is the one that counts. An edit takes out the old block and puts a
new one in front. The rest belongs to the operator of the host.
-/

namespace Ipgate.Sshd

/-! ## The block -/

def MARK_BEGIN : String := "# >>> ipgate-agent managed (ssh password auth) >>>"

def MARK_END : String := "# <<< ipgate-agent managed <<<"

def managedNote : String := "# 由 ipgate 客户端管理，勿手改；删除本块即恢复你原本的设置。"

/-- The block. To switch passwords off is to switch off keyboard-interactive logins too. -/
def managedBlock (enabled : Bool) : String :=
  let body :=
    if enabled then "PasswordAuthentication yes" ++ "\n"
    else "PasswordAuthentication no" ++ "\n" ++ "KbdInteractiveAuthentication no" ++ "\n"
  MARK_BEGIN ++ "\n" ++ managedNote ++ "\n" ++ body ++ MARK_END ++ "\n"

def isBegin (line : List Char) : Bool := Text.trimChars line = MARK_BEGIN.toList

def isEnd (line : List Char) : Bool := Text.trimChars line = MARK_END.toList

/-- The text without what is between the marks, with a line feed behind each line. -/
def stripManagedBlock (text : String) : String :=
  String.ofList ((Blocks.strip isBegin isEnd false (Text.lines text.toList)).flatMap (· ++ ['\n']))

/-- What `set_password_auth` writes. -/
def newMain (enabled : Bool) (prevMain : String) : String := managedBlock enabled ++ stripManagedBlock prevMain

/-! ## The lines of the operator -/

/-- The lines that are in no complete block. -/
def operatorLines (text : String) : List (List Char) := Blocks.outside isBegin isEnd (Text.lines text.toList)

/-- The lines of the operator are in the new text, in their order. -/
def KeepsOperatorLines (enabled : Bool) (text : String) : Prop :=
  (operatorLines text).Sublist (Text.endedLines (newMain enabled text).toList)

instance (enabled : Bool) (text : String) : Decidable (KeepsOperatorLines enabled text) :=
  inferInstanceAs (Decidable (List.Sublist _ _))

/-- The lines of the block. -/
def blockLines (enabled : Bool) : List (List Char) :=
  let body :=
    if enabled then ["PasswordAuthentication yes"]
    else ["PasswordAuthentication no", "KbdInteractiveAuthentication no"]
  (MARK_BEGIN :: managedNote :: body ++ [MARK_END]).map String.toList

/-- The lines of the operator up to the last mark that ends no block, and all of them where a mark
begins a block that is never ended. -/
def strayLines (text : String) : List (List Char) := Blocks.stray isBegin isEnd (Text.lines text.toList)

/-! ## What sshd reads -/

/-- The first word of a line, which ends at a blank or at an equals sign. -/
def keyword (line : List Char) : List Char :=
  (line.dropWhile Text.isWhitespace).takeWhile fun c => !(Text.isWhitespace c || c = '=')

/-- The word behind the keyword. -/
def argument (line : List Char) : List Char :=
  let rest := (line.dropWhile Text.isWhitespace).dropWhile fun c => !(Text.isWhitespace c || c = '=')
  (rest.dropWhile fun c => Text.isWhitespace c || c = '=').takeWhile fun c => !Text.isWhitespace c

/-- Keywords are read without regard to case. -/
def isPasswordLine (line : List Char) : Bool :=
  (keyword line).map Char.toLower = "passwordauthentication".toList

/-- One block, with the setting that counts: the first with its keyword is in the block. -/
structure Managed (enabled : Bool) (lines : List (List Char)) : Prop where
  begins : lines.countP isBegin = 1
  ends : lines.countP isEnd = 1
  block : blockLines enabled <+: lines
  first : ∃ k < (blockLines enabled).length, lines.findIdx? isPasswordLine = some k ∧
    (lines[k]?.map argument = some "yes".toList ↔ enabled = true)

/-- What one edit after the other makes of a text. -/
def edits (flags : List Bool) (text : String) : String := flags.foldl (fun t enabled => newMain enabled t) text

/-! ## What an edit keeps -/

section Spec

variable {enabled : Bool} {text : String} {line : List Char}

theorem managedBlock_toList (enabled : Bool) :
    (managedBlock enabled).toList = (blockLines enabled).flatMap (· ++ ['\n']) := by
  have hfeed : "\n".toList = ['\n'] := String.toList_ofList
  unfold managedBlock blockLines
  cases enabled with
  | true =>
    rw [if_pos rfl, if_pos rfl]
    simp only [hfeed, String.toList_append, List.map_append, List.map_cons, List.map_nil, List.flatMap_append,
      List.flatMap_cons, List.flatMap_nil, List.append_nil, List.append_assoc, -String.reduceToList, -String.reduceAppend]
  | false =>
    rw [if_neg Bool.false_ne_true, if_neg Bool.false_ne_true]
    simp only [hfeed, String.toList_append, List.map_append, List.map_cons, List.map_nil, List.flatMap_append,
      List.flatMap_cons, List.flatMap_nil, List.append_nil, List.append_assoc, -String.reduceToList, -String.reduceAppend]

/-- No line of the block has a line feed or ends with a carriage return, and there is no mark between its
first line and its last. -/
theorem blockLines_plain (enabled : Bool) :
    (∀ l ∈ blockLines enabled, '\n' ∉ l ∧ l.getLast? ≠ some '\r') ∧
      ∀ l ∈ (blockLines enabled).tail.dropLast, isBegin l = false ∧ isEnd l = false := by
  -- The lines are literals: their characters are there without a decoding.
  have hbegin : MARK_BEGIN.toList = _ := String.toList_ofList
  have hend : MARK_END.toList = _ := String.toList_ofList
  have hnote : managedNote.toList = _ := String.toList_ofList
  have hyes : "PasswordAuthentication yes".toList = _ := String.toList_ofList
  have hno : "PasswordAuthentication no".toList = _ := String.toList_ofList
  have hkbd : "KbdInteractiveAuthentication no".toList = _ := String.toList_ofList
  unfold isBegin isEnd
  cases enabled with
  | true =>
    simp only [blockLines, if_true, List.map_cons, List.map_nil, List.cons_append, List.nil_append,
      hbegin, hend, hnote, hyes]
    decide
  | false =>
    simp only [blockLines, Bool.false_eq_true, if_false, List.map_cons, List.map_nil, List.cons_append,
      List.nil_append, hbegin, hend, hnote, hno, hkbd]
    decide

theorem isBegin_MARK_BEGIN : isBegin MARK_BEGIN.toList = true := by
  have hbegin : MARK_BEGIN.toList = _ := String.toList_ofList
  unfold isBegin
  rw [hbegin]
  rfl

theorem isEnd_MARK_END : isEnd MARK_END.toList = true := by
  have hend : MARK_END.toList = _ := String.toList_ofList
  unfold isEnd
  rw [hend]
  rfl

/-- The block is the begin mark, lines without a mark, and the end mark. -/
theorem blockLines_eq (enabled : Bool) : ∃ body, blockLines enabled = MARK_BEGIN.toList :: body ++ [MARK_END.toList] ∧
    ∀ l ∈ body, isBegin l = false ∧ isEnd l = false := by
  refine ⟨(blockLines enabled).tail.dropLast, ?_, (blockLines_plain enabled).2⟩
  cases enabled <;> rfl

theorem not_isEnd_of_isBegin (h : isBegin line = true) : isEnd line = false := by
  have hbegin : MARK_BEGIN.toList = _ := String.toList_ofList
  have hend : MARK_END.toList = _ := String.toList_ofList
  unfold isBegin at h
  unfold isEnd
  rw [of_decide_eq_true h, hbegin, hend]
  rfl

theorem not_isBegin_MARK_END : isBegin MARK_END.toList = false := by
  cases hbegin : isBegin MARK_END.toList with
  | false => rfl
  | true =>
    have hend := not_isEnd_of_isBegin hbegin
    rw [isEnd_MARK_END] at hend
    cases hend

/-- The lines of the new text are those of the block, and what is left of the old ones. -/
theorem endedLines_newMain : Text.endedLines (newMain enabled text).toList =
    blockLines enabled ++ Blocks.strip isBegin isEnd false (Text.lines text.toList) := by
  have hlines : ∀ l ∈ blockLines enabled ++ Blocks.strip isBegin isEnd false (Text.lines text.toList), '\n' ∉ l := by
    intro l hl
    cases List.mem_append.mp hl with
    | inl hown => exact ((blockLines_plain enabled).1 l hown).1
    | inr hleft => exact Text.not_mem_lines (Blocks.strip_sublist.subset hleft)
  unfold newMain stripManagedBlock
  rw [String.toList_append, String.toList_ofList, managedBlock_toList, ← List.flatMap_append,
    Text.endedLines_flatMap hlines]

/-- The lines of the operator survive an edit exactly when those that a stray mark takes with it
are lines of the new block. -/
theorem keeps_operator_lines_iff (enabled : Bool) (text : String) :
    KeepsOperatorLines enabled text ↔ (strayLines text).Sublist (blockLines enabled) := by
  obtain ⟨body, hblock, hbody⟩ := blockLines_eq enabled
  have hbegin : ∀ l ∈ body ++ [MARK_END.toList], isBegin l = false := by
    intro l hl
    cases List.mem_append.mp hl with
    | inl hin => exact (hbody l hin).1
    | inr hlast => exact List.mem_singleton.mp hlast ▸ not_isBegin_MARK_END
  unfold KeepsOperatorLines
  rw [endedLines_newMain, hblock, List.cons_append]
  exact Blocks.outside_sublist_iff (fun _ => not_isEnd_of_isBegin) hbegin _

end Spec

/-! ### A block without its end -/

/-- The last line of the block has been deleted, and a directive follows. -/
def unended : String := MARK_BEGIN ++ "\n" ++ "PasswordAuthentication no" ++ "\n" ++ "Port 2222" ++ "\n"

theorem lines_unended : Text.lines unended.toList =
    [MARK_BEGIN.toList, "PasswordAuthentication no".toList, "Port 2222".toList] := by
  have hbegin : MARK_BEGIN.toList = _ := String.toList_ofList
  have hno : "PasswordAuthentication no".toList = _ := String.toList_ofList
  have hport : "Port 2222".toList = _ := String.toList_ofList
  have hfeed : "\n".toList = _ := String.toList_ofList
  simp only [unended, String.toList_append, hbegin, hno, hport, hfeed]
  decide

/-- The directive belongs to no block, and is not in the new text. -/
theorem directive_lost : "Port 2222".toList ∈ operatorLines unended ∧
    "Port 2222".toList ∉ Text.endedLines (newMain true unended).toList ∧ ¬KeepsOperatorLines true unended := by
  have hbegin : MARK_BEGIN.toList = _ := String.toList_ofList
  have hend : MARK_END.toList = _ := String.toList_ofList
  have hnote : managedNote.toList = _ := String.toList_ofList
  have hyes : "PasswordAuthentication yes".toList = _ := String.toList_ofList
  have hno : "PasswordAuthentication no".toList = _ := String.toList_ofList
  have hport : "Port 2222".toList = _ := String.toList_ofList
  have hmine : "Port 2222".toList ∈ operatorLines unended := by
    unfold operatorLines isBegin isEnd
    rw [lines_unended, hbegin, hno, hport, hend]
    decide
  have hlost : "Port 2222".toList ∉ blockLines true ++
      Blocks.strip isBegin isEnd false (Text.lines unended.toList) := by
    unfold isBegin isEnd blockLines
    simp only [lines_unended, hbegin, hend, hnote, hyes, hno, hport, if_true, List.map_cons, List.map_nil,
      List.cons_append, List.nil_append]
    decide
  rw [← endedLines_newMain] at hlost
  exact ⟨hmine, hlost, fun hkeeps => hlost (hkeeps.subset hmine)⟩

/-! ## One edit after the other -/

section Edits

variable {enabled enabled' : Bool} {text : String}

theorem lines_newMain (hcr : ∀ l ∈ Text.lines text.toList, l.getLast? ≠ some '\r') :
    Text.lines (newMain enabled text).toList =
      blockLines enabled ++ Blocks.strip isBegin isEnd false (Text.lines text.toList) := by
  have hleft : ∀ l ∈ Blocks.strip isBegin isEnd false (Text.lines text.toList), l ∈ Text.lines text.toList :=
    fun l hl => Blocks.strip_sublist.subset hl
  unfold newMain stripManagedBlock
  rw [String.toList_append, String.toList_ofList, managedBlock_toList, ← List.flatMap_append]
  apply Text.lines_flatMap
  · intro l hl
    cases List.mem_append.mp hl with
    | inl hown => exact ((blockLines_plain enabled).1 l hown).1
    | inr hrest => exact Text.not_mem_lines (hleft l hrest)
  · intro l hl
    cases List.mem_append.mp hl with
    | inl hown => exact ((blockLines_plain enabled).1 l hown).2
    | inr hrest => exact hcr l (hleft l hrest)

theorem not_cr_newMain (hcr : ∀ l ∈ Text.lines text.toList, l.getLast? ≠ some '\r') :
    ∀ l ∈ Text.lines (newMain enabled text).toList, l.getLast? ≠ some '\r' := by
  intro l hl
  rw [lines_newMain hcr] at hl
  cases List.mem_append.mp hl with
  | inl hown => exact ((blockLines_plain enabled).1 l hown).2
  | inr hrest => exact hcr l (Blocks.strip_sublist.subset hrest)

/-- The block that one edit has put in is what the next one takes out. -/
theorem strip_newMain (hcr : ∀ l ∈ Text.lines text.toList, l.getLast? ≠ some '\r') :
    stripManagedBlock (newMain enabled text) = stripManagedBlock text := by
  obtain ⟨body, hblock, hbody⟩ := blockLines_eq enabled
  have hleft : Blocks.strip isBegin isEnd false (blockLines enabled ++
      Blocks.strip isBegin isEnd false (Text.lines text.toList)) =
      Blocks.strip isBegin isEnd false (Text.lines text.toList) := by
    rw [hblock, List.append_assoc, List.singleton_append,
      Blocks.strip_block isBegin_MARK_BEGIN (fun l hl => (hbody l hl).2) not_isBegin_MARK_END isEnd_MARK_END]
    exact Blocks.strip_plain fun _ hl => Blocks.not_mark_of_mem_strip hl
  unfold stripManagedBlock
  rw [lines_newMain hcr, hleft]

theorem newMain_newMain (hcr : ∀ l ∈ Text.lines text.toList, l.getLast? ≠ some '\r') :
    newMain enabled' (newMain enabled text) = newMain enabled' text := by
  unfold newMain
  exact congrArg (managedBlock enabled' ++ ·) (strip_newMain hcr)

/-- Of many edits only the last one counts. -/
theorem edits_concat (flags : List Bool) (last : Bool) (hcr : ∀ l ∈ Text.lines text.toList, l.getLast? ≠ some '\r') :
    edits (flags ++ [last]) text = newMain last text := by
  induction flags generalizing text with
  | nil => rfl
  | cons enabled flags ih =>
    calc edits (enabled :: flags ++ [last]) text
      _ = edits (flags ++ [last]) (newMain enabled text) := rfl
      _ = newMain last (newMain enabled text) := ih (not_cr_newMain hcr)
      _ = newMain last text := newMain_newMain hcr

/-- In the block the setting is the third line. -/
theorem findIdx_blockLines (enabled : Bool) : (blockLines enabled).findIdx? isPasswordLine = some 2 ∧
    ((blockLines enabled)[2]?.map argument = some "yes".toList ↔ enabled = true) := by
  have hbegin : MARK_BEGIN.toList = _ := String.toList_ofList
  have hend : MARK_END.toList = _ := String.toList_ofList
  have hnote : managedNote.toList = _ := String.toList_ofList
  have hyes : "PasswordAuthentication yes".toList = _ := String.toList_ofList
  have hno : "PasswordAuthentication no".toList = _ := String.toList_ofList
  have hkbd : "KbdInteractiveAuthentication no".toList = _ := String.toList_ofList
  have hword : "yes".toList = _ := String.toList_ofList
  have hkey : "passwordauthentication".toList = _ := String.toList_ofList
  unfold isPasswordLine
  cases enabled with
  | true =>
    simp only [blockLines, if_true, List.map_cons, List.map_nil, List.cons_append, List.nil_append,
      hbegin, hend, hnote, hyes, hword, hkey]
    decide
  | false =>
    simp only [blockLines, Bool.false_eq_true, if_false, List.map_cons, List.map_nil, List.cons_append,
      List.nil_append, hbegin, hend, hnote, hno, hkbd, hword, hkey]
    decide

/-- Of lines without a mark behind the block, none counts. -/
theorem managed_append {rest : List (List Char)} (hrest : ∀ l ∈ rest, isBegin l = false ∧ isEnd l = false) :
    Managed enabled (blockLines enabled ++ rest) := by
  obtain ⟨body, hblock, hbody⟩ := blockLines_eq enabled
  have hnobegin : ∀ ls : List (List Char), (∀ l ∈ ls, isBegin l = false ∧ isEnd l = false) →
      ls.countP isBegin = 0 ∧ ls.countP isEnd = 0 := by
    intro ls hls
    refine ⟨List.countP_eq_zero.mpr fun l hl => ?_, List.countP_eq_zero.mpr fun l hl => ?_⟩
    · rw [(hls l hl).1]
      exact Bool.false_ne_true
    · rw [(hls l hl).2]
      exact Bool.false_ne_true
  obtain ⟨hfind, hvalue⟩ := findIdx_blockLines enabled
  have hlen : 2 < (blockLines enabled).length := by cases enabled <;> decide
  refine ⟨?_, ?_, List.prefix_append _ _, 2, hlen, ?_, ?_⟩
  · simp [hblock, hnobegin body hbody, hnobegin rest hrest, isBegin_MARK_BEGIN, not_isBegin_MARK_END]
  · simp [hblock, hnobegin body hbody, hnobegin rest hrest, isEnd_MARK_END, not_isEnd_of_isBegin isBegin_MARK_BEGIN]
  · rw [List.findIdx?_append, hfind]
    rfl
  · rw [List.getElem?_append_left hlen]
    exact hvalue

/-- Settings do not pile up, however often they are changed: the text is as after one edit, and has one
block, whose setting is the one that counts. -/
theorem edits_last_wins (text : String) (flags : List Bool) (last : Bool)
    (hcr : ∀ l ∈ Text.lines text.toList, l.getLast? ≠ some '\r') :
    edits (flags ++ [last]) text = newMain last text ∧
      Managed last (Text.lines (edits (flags ++ [last]) text).toList) := by
  have hedits := edits_concat flags last hcr
  refine ⟨hedits, ?_⟩
  rw [hedits, lines_newMain hcr]
  exact managed_append fun _ hl => Blocks.not_mark_of_mem_strip hl

/-- Passwords are switched on, off and on again over a block without its end. -/
theorem edits_unended : (∀ l ∈ Text.lines unended.toList, l.getLast? ≠ some '\r') ∧
    edits ([true, false] ++ [true]) unended = newMain true unended ∧
    Managed true (Text.lines (edits ([true, false] ++ [true]) unended).toList) := by
  have hcr : ∀ l ∈ Text.lines unended.toList, l.getLast? ≠ some '\r' := by
    have hbegin : MARK_BEGIN.toList = _ := String.toList_ofList
    have hno : "PasswordAuthentication no".toList = _ := String.toList_ofList
    have hport : "Port 2222".toList = _ := String.toList_ofList
    rw [lines_unended, hbegin, hno, hport]
    decide
  exact ⟨hcr, edits_last_wins unended [true, false] true hcr⟩

end Edits

end Ipgate.Sshd
