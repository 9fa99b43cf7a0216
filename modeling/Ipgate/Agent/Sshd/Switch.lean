-- SUMMARY: sshd.rs: the password switch with its roll-back, and which file a failed switch does not put back.
import Ipgate.Agent.Sshd

/-!
# Switching password logins

The main configuration is written, checked, loaded and probed, and put back when one of these
fails. A drop-in file of an older agent is removed on the way. What the tools of the host answer is
the input.
-/

namespace Ipgate.Sshd

/-! ## The settings of a running sshd -/

structure SshAuth where
  password : Option Bool := none
  kbdInteractive : Option Bool := none
  permitRoot : Option String := none
deriving DecidableEq

/-- One line of `sshd -T`: a key in lower case and a value. -/
def parseLine (a : SshAuth) (line : List Char) : SshAuth :=
  match Text.splitWhitespace line with
  | key :: val :: _ =>
    let yes := decide (val.map Char.toLower = "yes".toList)
    if key = "passwordauthentication".toList then { a with password := some yes }
    else if key = "kbdinteractiveauthentication".toList then { a with kbdInteractive := some yes }
    else if key = "challengeresponseauthentication".toList ∧ a.kbdInteractive = none then
      { a with kbdInteractive := some yes }
    else if key = "permitrootlogin".toList then { a with permitRoot := some (String.ofList val) }
    else a
  | _ => a

def parse (text : String) : SshAuth := (Text.lines text.toList).foldl parseLine {}

/-! ## The tools of the host -/

/-- Where the binary of sshd may be. -/
def sshdBins : List String := ["sshd", "/usr/sbin/sshd", "/usr/bin/sshd", "/sbin/sshd"]

/-- What the host answers in the course of one switch. -/
structure Answers where
  read : Except String Unit
  write : Except String Unit
  /-- The drop-in is there and can be removed. -/
  remove : Bool
  /-- `sshd -t` with its standard error, where the binary can be started. -/
  check : String → Option (Except String Unit)
  /-- The status of `systemctl` for an action and a service, with the new file in place. -/
  reload : String → String → Bool
  /-- The same when the former file has been put back. -/
  reloadBack : String → String → Bool
  /-- The output of `sshd -T`, where it ends well. -/
  dump : String → Option String

/-- The first binary that can be started decides. -/
def validateSshdConfig (check : String → Option (Except String Unit)) : Except String Unit :=
  match sshdBins.findSome? check with
  | some verdict => verdict.mapError Text.trim
  | none => .error "找不到 sshd 可执行文件"

def reloadSshd (systemctl : String → String → Bool) : Except String Unit :=
  if [("reload", "ssh"), ("reload", "sshd"), ("restart", "ssh"), ("restart", "sshd")].any
      (fun (action, svc) => systemctl action svc) then .ok ()
  else .error "systemctl reload/restart ssh|sshd 均失败"

def probe (dump : String → Option String) : SshAuth :=
  match sshdBins.findSome? dump with
  | some text => parse text
  | none => {}

/-! ## The switch -/

/-- The two files of the configuration: the main one, and the drop-in of an older agent. -/
structure Files where
  main : String
  dropin : Option String
deriving DecidableEq

/-- A call of `reloadSshd`: the files that it met, and how it ended. -/
structure Reload where
  met : Files
  result : Except String Unit

/-- How a switch ends: its result, the files behind it, and its calls of `reloadSshd`. -/
structure Switched where
  result : Except String Unit
  files : Files
  reloads : List Reload

def context (what cause : String) : String := what ++ ": " ++ cause

/-- The debug form. -/
def debugFlag : Option Bool → String
  | some flag => "Some(" ++ toString flag ++ ")"
  | none => "None"

/-- Check, load and probe what is written, with the call of `reloadSshd` where there is one. -/
def outcome (a : Answers) (enabled : Bool) (files : Files) : Except String Unit × List Reload :=
  match validateSshdConfig a.check with
  | .error e => (.error (context "sshd 配置校验失败" e), [])
  | .ok () =>
    let call : Reload := ⟨files, reloadSshd a.reload⟩
    match call.result with
    | .error e => (.error (context "reload sshd 失败" e), [call])
    | .ok () =>
      let got := (probe a.dump).password
      if got = some enabled then (.ok (), [call])
      else
        let what := "reload 后 PasswordAuthentication 仍为 " ++ debugFlag got ++ "（期望 " ++ toString enabled ++ "）"
        (.error what, [call])

/-- The files with the new main one; the drop-in is removed on the way. -/
def written (a : Answers) (enabled : Bool) (files : Files) : Files :=
  { main := newMain enabled files.main, dropin := if a.remove then none else files.dropin }

/-- The write that puts the main file back goes through. -/
def setPasswordAuth (a : Answers) (enabled : Bool) (files : Files) : Switched :=
  match a.read with
  | .error e => ⟨.error (context "读取 /etc/ssh/sshd_config 失败" e), files, []⟩
  | .ok () =>
    match a.write with
    | .error e =>
      let what := "写入 /etc/ssh/sshd_config 失败（可读不可写：常见于文件被设了不可变属性 `chattr +i`，或 /etc 为只读挂载）"
      ⟨.error (context what e), files, []⟩
    | .ok () =>
      match outcome a enabled (written a enabled files) with
      | (.ok (), calls) => ⟨.ok (), written a enabled files, calls⟩
      | (.error e, calls) =>
        let back := { written a enabled files with main := files.main }
        ⟨.error e, back, calls ++ [⟨back, reloadSshd a.reloadBack⟩]⟩

/-- The written configuration passes the check, is loaded, and has the wanted setting. -/
def accepted (a : Answers) (enabled : Bool) : Bool :=
  (validateSshdConfig a.check).isOk && (reloadSshd a.reload).isOk && (probe a.dump).password = some enabled

/-- A switch that fails leaves the files as they were, and the last call of `reloadSshd`, whichever way it
ends, has met the former setting. -/
def ChangesNothing {ε : Type} (effective : Files → ε) (before : Files) (s : Switched) : Prop :=
  s.result.isOk = false → s.files = before ∧ ∀ call ∈ s.reloads.getLast?, effective call.met = effective before

/-! ## What a failed switch changes -/

section Spec

variable {ε : Type} {effective : Files → ε} {a : Answers} {enabled : Bool} {files : Files}

/-- The files behind a failed switch that has come to write: the drop-in may be gone. -/
def putBack (a : Answers) (files : Files) : Files :=
  { files with dropin := if a.remove then none else files.dropin }

theorem outcome_isOk : (outcome a enabled files).1.isOk = accepted a enabled := by
  unfold outcome accepted
  cases validateSshdConfig a.check with
  | error e => rfl
  | ok _ =>
    dsimp only
    cases reloadSshd a.reload with
    | error e => rfl
    | ok _ =>
      dsimp only
      split
      · next hgot => simp [hgot, Except.isOk, Except.toBool]
      · next hgot => simp [hgot, Except.isOk, Except.toBool]

/-- A switch ends before it writes, or as the written configuration is accepted or not. -/
theorem setPasswordAuth_cases (a : Answers) (enabled : Bool) (files : Files) :
    ((a.read.isOk = false ∨ a.write.isOk = false) ∧ (setPasswordAuth a enabled files).files = files ∧
        (setPasswordAuth a enabled files).reloads = []) ∨
      (a.read.isOk = true ∧ a.write.isOk = true ∧ accepted a enabled = true ∧
        (setPasswordAuth a enabled files).result = .ok ()) ∨
      (a.read.isOk = true ∧ a.write.isOk = true ∧ accepted a enabled = false ∧
        (setPasswordAuth a enabled files).result.isOk = false ∧
        (setPasswordAuth a enabled files).files = putBack a files ∧
        (setPasswordAuth a enabled files).reloads.getLast? =
          some ⟨putBack a files, reloadSshd a.reloadBack⟩) := by
  unfold setPasswordAuth
  cases hread : a.read with
  | error e => exact .inl ⟨.inl rfl, rfl, rfl⟩
  | ok _ =>
    cases hwrite : a.write with
    | error e => exact .inl ⟨.inr rfl, rfl, rfl⟩
    | ok _ =>
      right
      dsimp only
      have hok := @outcome_isOk a enabled (written a enabled files)
      cases hout : outcome a enabled (written a enabled files) with
      | mk r calls =>
        rw [hout] at hok
        cases r with
        | ok _ => exact .inl ⟨rfl, rfl, hok.symm, rfl⟩
        | error e => exact .inr ⟨rfl, rfl, hok.symm, rfl, rfl, List.getLast?_concat⟩

theorem putBack_eq_iff : putBack a files = files ↔ a.remove = false ∨ files.dropin = none := by
  unfold putBack
  obtain ⟨main, dropin⟩ := files
  cases hremove : a.remove with
  | false => simp
  | true => simp [eq_comm]

/-- A failed switch has changed nothing unless it has removed the drop-in: it has not come to that, there
was nothing to remove, or the switch does not fail. -/
theorem changes_nothing_iff (effective : Files → ε) (a : Answers) (enabled : Bool) (files : Files) :
    ChangesNothing effective files (setPasswordAuth a enabled files) ↔
      a.read.isOk = false ∨ a.write.isOk = false ∨ a.remove = false ∨ files.dropin = none ∨
        accepted a enabled = true := by
  unfold ChangesNothing
  cases setPasswordAuth_cases a enabled files with
  | inl hearly =>
    obtain ⟨hcause, hfiles, hreloads⟩ := hearly
    rw [hfiles, hreloads]
    refine iff_of_true (fun _ => ⟨rfl, fun _ hcall => ?_⟩) ?_
    · cases hcall
    · cases hcause with
      | inl hread => exact .inl hread
      | inr hwrite => exact .inr (.inl hwrite)
  | inr hlate =>
    cases hlate with
    | inl hgood =>
      obtain ⟨-, -, hacc, hresult⟩ := hgood
      rw [hresult]
      exact iff_of_true (fun herr => nomatch herr) (.inr (.inr (.inr (.inr hacc))))
    | inr hbad =>
      obtain ⟨hread, hwrite, hacc, herr, hfiles, hlast⟩ := hbad
      rw [hfiles, hlast, hread, hwrite, hacc, ← or_assoc (b := files.dropin = none), ← putBack_eq_iff]
      constructor
      -- a switch that fails has put back what it could; the files show whether that was all
      · intro hnothing
        exact .inr (.inr (.inl (hnothing herr).1))
      · intro hcond _
        have hsame : putBack a files = files := by simpa using hcond
        refine ⟨hsame, fun call hcall => ?_⟩
        rw [← Option.some.inj hcall, hsame]

end Spec

/-! ### A drop-in that is not put back -/

/-- The line that takes the files of a directory in. -/
def isIncludeLine (line : List Char) : Bool :=
  (keyword line).map Char.toLower = "include".toList && argument line = "/etc/ssh/sshd_config.d/*.conf".toList

/-- The lines of the configuration, with those of the drop-in where its directory is taken in. -/
def configLines (files : Files) : List (List Char) :=
  (Text.lines files.main.toList).flatMap fun line =>
    if isIncludeLine line then (files.dropin.map fun text => Text.lines text.toList).getD [] else [line]

/-- A main file of two lines, the first of which takes the drop-in in. -/
theorem configLines_included {files : Files} {l₁ l₂ : List Char}
    (hlines : Text.lines files.main.toList = [l₁, l₂])
    (hin : isIncludeLine l₁ = true) (hout : isIncludeLine l₂ = false) :
    configLines files = (files.dropin.map fun text => Text.lines text.toList).getD [] ++ [l₂] := by
  unfold configLines
  rw [hlines, List.flatMap_cons, List.flatMap_cons, List.flatMap_nil, if_pos hin, hout, if_neg Bool.false_ne_true]
  rfl

/-- The first value of the keyword is the one that counts. -/
def effectivePassword (files : Files) : Option (List Char) := ((configLines files).find? isPasswordLine).map argument

/-- The drop-in has switched passwords off, and it is what counts. -/
def overridden : Files where
  main := "Include /etc/ssh/sshd_config.d/*.conf" ++ "\n" ++ "PasswordAuthentication yes" ++ "\n"
  dropin := some ("PasswordAuthentication no" ++ "\n")

/-- No service can be reloaded. -/
def stuck : Answers where
  read := .ok ()
  write := .ok ()
  remove := true
  check _ := some (.ok ())
  reload _ _ := false
  reloadBack _ _ := false
  dump _ := none

theorem lines_overridden : Text.lines overridden.main.toList =
    ["Include /etc/ssh/sshd_config.d/*.conf".toList, "PasswordAuthentication yes".toList] := by
  have hinclude : "Include /etc/ssh/sshd_config.d/*.conf".toList = _ := String.toList_ofList
  have hyes : "PasswordAuthentication yes".toList = _ := String.toList_ofList
  have hfeed : "\n".toList = _ := String.toList_ofList
  have hmain : overridden.main.toList = _ := String.toList_append
  rw [hmain, String.toList_append, String.toList_append, hinclude, hyes, hfeed]
  decide

theorem lines_dropin : Text.lines ("PasswordAuthentication no" ++ "\n").toList =
    ["PasswordAuthentication no".toList] := by
  have hno : "PasswordAuthentication no".toList = _ := String.toList_ofList
  have hfeed : "\n".toList = _ := String.toList_ofList
  simp only [String.toList_append, hno, hfeed, -String.reduceToList, -String.reduceAppend]
  decide

theorem isIncludeLine_overridden : isIncludeLine "Include /etc/ssh/sshd_config.d/*.conf".toList = true ∧
    isIncludeLine "PasswordAuthentication yes".toList = false := by
  have hinclude : "Include /etc/ssh/sshd_config.d/*.conf".toList = _ := String.toList_ofList
  have hyes : "PasswordAuthentication yes".toList = _ := String.toList_ofList
  have hword : "include".toList = _ := String.toList_ofList
  have hdir : "/etc/ssh/sshd_config.d/*.conf".toList = _ := String.toList_ofList
  unfold isIncludeLine
  rw [hinclude, hyes, hword, hdir]
  decide

/-- With the drop-in its line comes first, without it the line of the main file. -/
theorem effectivePassword_overridden : effectivePassword overridden = some "no".toList ∧
    effectivePassword ⟨overridden.main, none⟩ = some "yes".toList := by
  obtain ⟨hin, hout⟩ := isIncludeLine_overridden
  have hdropin : overridden.dropin = some ("PasswordAuthentication no" ++ "\n") := rfl
  have hread (line : String) (hline : isPasswordLine line.toList = true) (rest : List (List Char)) :
      ((line.toList :: rest).find? isPasswordLine).map argument = some (argument line.toList) := by
    rw [List.find?_cons_of_pos hline, Option.map_some]
  have hyes : isPasswordLine "PasswordAuthentication yes".toList = true ∧
      argument "PasswordAuthentication yes".toList = "yes".toList := by
    have hline : "PasswordAuthentication yes".toList = _ := String.toList_ofList
    have hkey : "passwordauthentication".toList = _ := String.toList_ofList
    have hon : "yes".toList = _ := String.toList_ofList
    unfold isPasswordLine
    rw [hline, hkey, hon]
    decide
  have hno : isPasswordLine "PasswordAuthentication no".toList = true ∧
      argument "PasswordAuthentication no".toList = "no".toList := by
    have hline : "PasswordAuthentication no".toList = _ := String.toList_ofList
    have hkey : "passwordauthentication".toList = _ := String.toList_ofList
    have hoff : "no".toList = _ := String.toList_ofList
    unfold isPasswordLine
    rw [hline, hkey, hoff]
    decide
  have hwith : configLines overridden =
      "PasswordAuthentication no".toList :: ["PasswordAuthentication yes".toList] := by
    rw [configLines_included lines_overridden hin hout, hdropin, Option.map_some, Option.getD_some, lines_dropin]
    exact List.singleton_append
  have hwithout : configLines ⟨overridden.main, none⟩ = "PasswordAuthentication yes".toList :: [] := by
    exact @configLines_included ⟨overridden.main, none⟩ _ _ lines_overridden hin hout
  unfold effectivePassword
  rw [hwith, hwithout, hread _ hno.1, hread _ hyes.1, hno.2, hyes.2]
  exact ⟨rfl, rfl⟩

/-- The switch fails, and the passwords that were off are on in what the last call of `reloadSshd` meets. -/
theorem dropin_lost : (setPasswordAuth stuck false overridden).result.isOk = false ∧
    (setPasswordAuth stuck false overridden).files = ⟨overridden.main, none⟩ ∧
    effectivePassword overridden = some "no".toList ∧
    (setPasswordAuth stuck false overridden).reloads.getLast?.map (fun call => effectivePassword call.met) =
      some (some "yes".toList) ∧
    ¬ChangesNothing effectivePassword overridden (setPasswordAuth stuck false overridden) := by
  have hend : (setPasswordAuth stuck false overridden).result.isOk = false ∧
      (setPasswordAuth stuck false overridden).files = ⟨overridden.main, none⟩ ∧
      (setPasswordAuth stuck false overridden).reloads.getLast? =
        some ⟨⟨overridden.main, none⟩, reloadSshd stuck.reloadBack⟩ :=
    ⟨rfl, rfl, rfl⟩
  obtain ⟨herr, hfiles, hlast⟩ := hend
  obtain ⟨hbefore, hafter⟩ := effectivePassword_overridden
  refine ⟨herr, hfiles, hbefore, ?_, ?_⟩
  · rw [hlast, Option.map_some, hafter]
  · intro hnothing
    have hsame := (hnothing herr).1
    rw [hfiles] at hsame
    have hgone : (none : Option String) = overridden.dropin := congrArg Files.dropin hsame
    cases hgone

end Ipgate.Sshd
