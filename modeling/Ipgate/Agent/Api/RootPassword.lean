-- SUMMARY: The reset of root's password, and for which passwords chpasswd is told of root alone.
import Ipgate.Agent.Api.Handlers
import Ipgate.Agent.Sshd.Switch
import Ipgate.Lib.Utf8

/-!
# The password of root

The password comes from a client and goes to chpasswd, which reads a user and a password from each
line of its input. It is written into such a line as it is.
-/

namespace Ipgate.Sshd

open Act

/-- How chpasswd has ended. -/
structure Output where
  success : Bool
  stderr : String

/-- What the host answers when chpasswd is run. -/
structure Chpasswd where
  spawn : Except String Unit
  /-- There is a pipe to its input. -/
  stdin : Bool
  /-- The pipe takes the line, or fails after so many bytes. -/
  write : Except (String × ℕ) Unit
  wait : Except String Output

/-- Write to the input of chpasswd. -/
def writeStdin (c : Chpasswd) (line : List UInt8) : Act (List UInt8) String Unit :=
  match c.write with
  | .ok () => .modify (· ++ line)
  | .error (e, n) => do
    .modify (· ++ line.take n)
    .fail (context "写 chpasswd stdin 失败" e)

/-- The state is what has been written to chpasswd. -/
def resetRootPassword (c : Chpasswd) (password : String) : Act (List UInt8) String Unit := do
  .onlyIf password.isEmpty (.fail "密码为空")
  .lift (c.spawn.mapError (context "启动 chpasswd 失败"))
  .onlyIf (!c.stdin) (.fail "chpasswd stdin 不可用")
  writeStdin c (Utf8.bytes ("root:" ++ password ++ "\n").toList)
  let out ← .lift c.wait
  .onlyIf (!out.success) (.fail ("chpasswd 失败：" ++ Text.trim out.stderr))

/-! ## What chpasswd reads -/

/-- A line feed. -/
def feed : UInt8 := Utf8.byte '\n'

def colon : UInt8 := Utf8.byte ':'

/-- The user before the first colon of a line, and the password behind it. -/
def record (line : List UInt8) : Option (List UInt8 × List UInt8) :=
  match line.dropWhile (· ≠ colon) with
  | _ :: password => some (line.takeWhile (· ≠ colon), password)
  | [] => none

/-- The records of the lines, none for a line without a colon. What follows the last line feed is a
line unless it is empty. -/
def records (input : List UInt8) : List (Option (List UInt8 × List UInt8)) :=
  let pieces := input.splitOn feed
  let last := pieces.getLastD []
  (pieces.dropLast ++ if last = [] then [] else [last]).map record

section Records

variable {line user password input : List UInt8}

theorem record_append (huser : colon ∉ user) : record (user ++ colon :: password) = some (user, password) := by
  have hother : ∀ b ∈ user, decide (b ≠ colon) = true := fun b hb => decide_eq_true fun heq => huser (heq ▸ hb)
  unfold record
  rw [List.dropWhile_append_of_pos hother, List.takeWhile_append_of_pos hother]
  simp

/-- The password of a line is a part of it. -/
theorem mem_of_record {b : UInt8} (h : record line = some (user, password)) (hb : b ∈ password) : b ∈ line := by
  unfold record at h
  split at h
  · next d rest hdrop =>
    obtain ⟨-, rfl⟩ := Prod.mk.inj (Option.some.inj h)
    have hmem : b ∈ line.dropWhile (· ≠ colon) := by
      rw [hdrop]
      exact List.mem_cons_of_mem d hb
    exact (List.dropWhile_suffix _).subset hmem
  · cases h

/-- One line with its line feed is one record. -/
theorem records_line (hline : feed ∉ line) : records (line ++ [feed]) = [record line] := by
  have hpieces := @Text.splitOn_ended _ _ _ feed [line] (by simpa using hline)
  rw [List.flatMap_singleton] at hpieces
  unfold records
  rw [hpieces]
  rfl

theorem not_mem_of_mem_records (h : some (user, password) ∈ records input) : feed ∉ password := by
  intro hfeed
  obtain ⟨line, hline, hrecord⟩ := List.mem_map.mp h
  have hpiece : line ∈ input.splitOn feed := by
    cases List.mem_append.mp hline with
    | inl hinit => exact List.dropLast_subset _ hinit
    | inr hlast =>
      split at hlast
      · cases hlast
      · rw [List.mem_singleton.mp hlast]
        exact Text.getLastD_splitOn_mem feed input
  exact Text.not_mem_of_mem_splitOn hpiece (mem_of_record hrecord hfeed)

end Records

end Ipgate.Sshd

namespace Ipgate

open Act

def passwordTooShort : ApiError := ⟨.badRequest, "密码至少 8 位"⟩

/-- The handler. -/
def resetRootPassword (c : Sshd.Chpasswd) (password : String) : Act (List UInt8) ApiError Unit := do
  .onlyIf (decide (password.length < 8)) (.fail passwordTooShort)
  .mapErr internal (Sshd.resetRootPassword c password)

/-- What chpasswd has been given when the handler has ended. -/
def chpasswdInput (c : Sshd.Chpasswd) (password : String) : List UInt8 := (resetRootPassword c password []).2

/-- One record, of root and with the password as it is. -/
def TouchesOnlyRoot (c : Sshd.Chpasswd) (password : String) : Prop :=
  Sshd.records (chpasswdInput c password) = [some (Utf8.bytes "root".toList, Utf8.bytes password.toList)]

section Spec

variable {c : Sshd.Chpasswd} {password : String} {input : List UInt8}

/-- chpasswd is started, and takes its input. -/
def Takes (c : Sshd.Chpasswd) : Prop := c.spawn = .ok () ∧ c.stdin = true ∧ c.write = .ok ()

/-- A short password is turned down before chpasswd is started. -/
theorem resetRootPassword_short (hshort : password.length < 8) :
    resetRootPassword c password input = (.error passwordTooShort, input) := by
  unfold resetRootPassword
  rw [decide_eq_true hshort]
  rfl

theorem isEmpty_of_long (hlong : 8 ≤ password.length) : password.isEmpty = false := by
  rw [String.isEmpty_eq_false_iff]
  rintro rfl
  exact absurd hlong (by decide)

/-- Any other password is written behind the name of root, whatever is in it. -/
theorem chpasswdInput_eq (htakes : Takes c) (hlong : 8 ≤ password.length) :
    chpasswdInput c password = Utf8.bytes "root:".toList ++ (Utf8.bytes password.toList ++ [Sshd.feed]) := by
  obtain ⟨hspawn, hstdin, hwrite⟩ := htakes
  have hne := isEmpty_of_long hlong
  have hline : Utf8.bytes ("root:" ++ password ++ "\n").toList =
      Utf8.bytes "root:".toList ++ (Utf8.bytes password.toList ++ [Sshd.feed]) := by
    have hfeed : "\n".toList = ['\n'] := String.toList_ofList
    rw [String.toList_append, String.toList_append, hfeed, Utf8.bytes_append, Utf8.bytes_append, List.append_assoc]
    rfl
  unfold chpasswdInput resetRootPassword Sshd.resetRootPassword Sshd.writeStdin
  rw [hspawn, hstdin, hwrite, hne, decide_eq_false (Nat.not_lt.mpr hlong), ← hline]
  -- How chpasswd ends does not matter: nothing is written after the line.
  cases hwait : c.wait with
  | error e => rfl
  | ok out =>
    obtain ⟨success, stderr⟩ := out
    cases success with
    | true => rfl
    | false => rfl

/-- Success is reported only if chpasswd has taken the line and has ended well. -/
theorem takes_of_ok (hok : (resetRootPassword c password input).1 = .ok ()) :
    8 ≤ password.length ∧ Takes c ∧ ∃ out, c.wait = .ok out ∧ out.success = true := by
  have hlong : 8 ≤ password.length := by
    rw [← Nat.not_lt]
    intro hshort
    rw [resetRootPassword_short hshort] at hok
    cases hok
  refine ⟨hlong, ?_⟩
  unfold resetRootPassword Sshd.resetRootPassword Sshd.writeStdin at hok
  rw [isEmpty_of_long hlong, decide_eq_false (Nat.not_lt.mpr hlong)] at hok
  -- Every call has to succeed; each failure ends in an error of its own.
  obtain ⟨spawn, stdin, write, wait⟩ := c
  cases spawn with
  | error e => cases hok
  | ok _ =>
    cases stdin with
    | false => cases hok
    | true =>
      cases write with
      | error e => cases hok
      | ok _ =>
        cases wait with
        | error e => cases hok
        | ok out =>
          obtain ⟨success, stderr⟩ := out
          cases success with
          | false => cases hok
          | true => exact ⟨⟨rfl, rfl, rfl⟩, _, rfl, rfl⟩

theorem bytes_root : Utf8.bytes "root:".toList = Utf8.bytes "root".toList ++ [Sshd.colon] ∧
    Sshd.colon ∉ Utf8.bytes "root".toList ∧ Sshd.feed ∉ Utf8.bytes "root:".toList := by
  have hroot : "root".toList = ['r', 'o', 'o', 't'] := String.toList_ofList
  have hcolon : "root:".toList = ['r', 'o', 'o', 't', ':'] := String.toList_ofList
  rw [hroot, hcolon]
  decide

/-- Whatever else is in a password, chpasswd is told of root alone unless there is a line feed in it. -/
theorem touchesOnlyRoot_iff (c : Sshd.Chpasswd) (htakes : Takes c) (password : String) (hlong : 8 ≤ password.length) :
    TouchesOnlyRoot c password ↔ '\n' ∉ password.toList := by
  obtain ⟨hsplit, hcolon, hfeed⟩ := bytes_root
  have hbyte : Sshd.feed ∈ Utf8.bytes password.toList ↔ '\n' ∈ password.toList := Utf8.byte_mem_bytes (by decide)
  unfold TouchesOnlyRoot
  rw [chpasswdInput_eq htakes hlong, ← hbyte]
  constructor
  · intro honly
    have hmem := List.mem_singleton_self (some (Utf8.bytes "root".toList, Utf8.bytes password.toList))
    rw [← honly] at hmem
    exact Sshd.not_mem_of_mem_records hmem
  · intro hpassword
    have hline : Sshd.feed ∉ Utf8.bytes "root:".toList ++ Utf8.bytes password.toList := by
      rw [List.mem_append]
      exact fun hin => hin.elim hfeed hpassword
    rw [← List.append_assoc, Sshd.records_line hline, hsplit, List.append_assoc, List.singleton_append,
      Sshd.record_append hcolon]

end Spec

/-- A host on which chpasswd does as it is told. -/
def willing : Sshd.Chpasswd where
  spawn := .ok ()
  stdin := true
  write := .ok ()
  wait := .ok ⟨true, ""⟩

theorem touchesOnlyRoot_colon : TouchesOnlyRoot willing "pass:word 密码" := by
  have hlit : "pass:word 密码".toList = _ := String.toList_ofList
  refine (touchesOnlyRoot_iff willing ⟨rfl, rfl, rfl⟩ _ (by decide)).mpr ?_
  rw [hlit]
  decide

/-- The handler reports success, and chpasswd has been told of two users: root gets another password, and admin
gets one too. -/
theorem second_record : (resetRootPassword willing "12345678\nadmin:backdoor" []).1 = .ok () ∧
    Sshd.records (chpasswdInput willing "12345678\nadmin:backdoor") =
      [some (Utf8.bytes "root".toList, Utf8.bytes "12345678".toList),
        some (Utf8.bytes "admin".toList, Utf8.bytes "backdoor".toList)] ∧
    ¬TouchesOnlyRoot willing "12345678\nadmin:backdoor" := by
  have hlong : 8 ≤ "12345678\nadmin:backdoor".length := by decide
  have hrecords : Sshd.records (chpasswdInput willing "12345678\nadmin:backdoor") =
      [some (Utf8.bytes "root".toList, Utf8.bytes "12345678".toList),
        some (Utf8.bytes "admin".toList, Utf8.bytes "backdoor".toList)] := by
    have hpassword : "12345678\nadmin:backdoor".toList = _ := String.toList_ofList
    have hline : "root:".toList = _ := String.toList_ofList
    have hroot : "root".toList = _ := String.toList_ofList
    have hfirst : "12345678".toList = _ := String.toList_ofList
    have hadmin : "admin".toList = _ := String.toList_ofList
    have hsecond : "backdoor".toList = _ := String.toList_ofList
    rw [chpasswdInput_eq ⟨rfl, rfl, rfl⟩ hlong, hpassword, hline, hroot, hfirst, hadmin, hsecond]
    decide +kernel
  refine ⟨rfl, hrecords, fun honly => ?_⟩
  have htwo := congrArg List.length (hrecords.symm.trans honly)
  cases htwo

end Ipgate
