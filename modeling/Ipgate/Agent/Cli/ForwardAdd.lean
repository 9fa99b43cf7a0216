-- SUMMARY: main.rs: adding a forward from the console, and the requests on which its checks and the remote ones differ.
import Ipgate.Lib.IpText
import Ipgate.Agent.Api.Forwards
import Ipgate.Agent.Cli.SshExpose

/-!
# Forwards from the console

The console command reads a request from its arguments and checks it on its own. `commandLine` writes
a request as arguments, and `forwards_agree_iff` says which requests the two checks judge alike.
-/

namespace Ipgate.Cli

open Net Act

/-! ## Reading the arguments -/

/-- A range whose first port is not zero. -/
def checkRange (s : List Char) (pr : PortRange) : Except String PortRange :=
  if pr.start = 0 || !pr.isValid then .error ("非法端口区间: " ++ String.ofList s) else .ok pr

/-- A port, or two of them with a dash between. -/
def parsePortRange (s : List Char) : Except String PortRange :=
  let s := Text.trimChars s
  match Text.splitOnce '-' s with
  | some (a, b) => do
    let start ← orError ("非法端口: " ++ String.ofList a) (Text.parseU16 (Text.trimChars a))
    let stop ← orError ("非法端口: " ++ String.ofList b) (Text.parseU16 (Text.trimChars b))
    checkRange s ⟨start, stop⟩
  | none => do
    let p ← orError ("非法端口: " ++ String.ofList s) (Text.parseU16 s)
    checkRange s (PortRange.single p)

def parseProto (s : String) : Except String ForwardProto :=
  let other := String.ofList ((Text.trimChars s.toList).map Char.toLower)
  if other = "tcp" then .ok .tcp
  else if other = "udp" then .ok .udp
  else if other = "both" ∨ other = "tcp+udp" ∨ other = "all" then .ok .both
  else .error ("非法协议（tcp|udp|both）: " ++ other)

def parseSource (s : String) : Except String ForwardSource :=
  let s := Text.trimChars s.toList
  if s = [] ∨ s.map Char.toLower = "auto".toList then .ok .auto
  else (orError ("非法源 IPv4: " ++ String.ofList s) (parseIpv4 (String.ofList s))).map ForwardSource.ip

/-- The arguments of the command. -/
structure ForwardArgs where
  listen : String
  dest : String
  proto : String
  iface : Option String
  source : String
  note : String

/-- The request the arguments are for. The ports of the target are behind its last colon. -/
def requestOf (args : ForwardArgs) : Except String AddForwardRequest := do
  let listen ← parsePortRange args.listen.toList
  let (host, dport) ← orError "目标需 host:port 形式，如 10.0.0.9:8443" (Text.rsplitOnce ':' args.dest.toList)
  let destPort ← parsePortRange dport
  let proto ← parseProto args.proto
  let source ← parseSource args.source
  return { proto := proto, iface := args.iface, listen := listen, destHost := String.ofList (Text.trimChars host)
           destPort := destPort, source := source, note := args.note }

/-! ## The checks of the command -/

/-- The checks of the remote request once more, on a host without blanks around it. -/
def checkRequest (a : DnatAdapter) (conf : Except String Unit) (defaultIface : Option String)
    (req : AddForwardRequest) : Except String Unit := do
  validatePorts req.listen req.destPort
  if req.destHost = "" then .error "目标主机为空"
  else if req.iface.any fun i => !validIfaceName i then .error "网卡名非法（仅允许字母数字与 . _ -，≤15 字符）"
  else
    match (parseIpv4 req.destHost).bind forbiddenForwardTarget with
    | some why => .error ("目标地址不允许：" ++ why)
    | none =>
      if clashesWithDnat a conf defaultIface req then .error "监听端口已被本机 dnat 规则占用，请先 `dnat-migrate` 或换端口"
      else .ok ()

/-- What the command does before it touches the store. -/
def acceptForward (a : DnatAdapter) (conf : Except String Unit) (defaultIface : Option String) (args : ForwardArgs) :
    Except String AddForwardRequest := do
  let req ← requestOf args
  checkRequest a conf defaultIface req
  return req

/-- The command: the new rule is saved, and installed if that can be done now. -/
def forwardAddCli {κ : Type} (B : NftBackend κ) (N : NatBackend (Machine κ)) (a : DnatAdapter)
    (conf : Except String Unit) (defaultIface : Option String) (env : ForwardRule → HostEnv) (args : ForwardArgs)
    (now : DateTime) (id : ForwardId) : Act (World (Machine κ)) String ForwardRule := do
  let req ← .lift (acceptForward a conf defaultIface args)
  loadStore
  let rule ← onStore fun s => s.addForward req ⟨0⟩ now id
  callSave (machine B)
  .ignore (applyNow (machine B) N env)
  return rule

/-! ## Requests as arguments -/

def fmtPorts (p : PortRange) : String :=
  if p.start = p.stop then toString p.start else toString p.start ++ "-" ++ toString p.stop

def protoLabel : ForwardProto → String
  | .tcp => "tcp"
  | .udp => "udp"
  | .both => "tcp+udp"

def sourceLabel : ForwardSource → String
  | .auto => "auto"
  | .ip ip => ipv4String ip

/-- The arguments that stand for a request. -/
def commandLine (req : AddForwardRequest) : ForwardArgs where
  listen := fmtPorts req.listen
  dest := req.destHost ++ ":" ++ fmtPorts req.destPort
  proto := protoLabel req.proto
  iface := req.iface
  source := sourceLabel req.source
  note := req.note

section Reading

variable {req : AddForwardRequest} {c : Char}

theorem dash_not_mem_port (p : UInt16) : '-' ∉ (toString p).toList := by
  intro hmem
  have hdigit := Text.isDigit_of_mem_port hmem
  revert hdigit
  decide

theorem fmtPorts_toList (p : PortRange) : (fmtPorts p).toList =
    if p.start = p.stop then (toString p.start).toList
    else (toString p.start).toList ++ '-' :: (toString p.stop).toList := by
  have hdash : "-".toList = ['-'] := String.toList_ofList
  unfold fmtPorts
  split
  · rfl
  · rw [String.toList_append, String.toList_append, hdash, List.append_assoc, List.singleton_append]

/-- Ports are digits and dashes. -/
theorem mem_fmtPorts {p : PortRange} (h : c ∈ (fmtPorts p).toList) : c.isDigit = true ∨ c = '-' := by
  rw [fmtPorts_toList] at h
  split at h
  · exact .inl (Text.isDigit_of_mem_port h)
  · simp only [List.mem_append, List.mem_cons] at h
    rcases h with hstart | hdash | hstop
    · exact .inl (Text.isDigit_of_mem_port hstart)
    · exact .inr hdash
    · exact .inl (Text.isDigit_of_mem_port hstop)

theorem trim_fmtPorts (p : PortRange) : Text.trimChars (fmtPorts p).toList = (fmtPorts p).toList := by
  apply Text.trimChars_of_plain
  intro c hc
  cases mem_fmtPorts hc with
  | inl hdigit => exact Text.not_isWhitespace_of_isDigit hdigit
  | inr hdash => exact hdash ▸ (by decide)

theorem trim_port (p : UInt16) : Text.trimChars (toString p).toList = (toString p).toList :=
  Text.trimChars_of_plain fun _ hc => Text.not_isWhitespace_of_isDigit (Text.isDigit_of_mem_port hc)

/-- What is printed of a range is read again, and checked. -/
theorem parsePortRange_fmtPorts (p : PortRange) :
    parsePortRange (fmtPorts p).toList = checkRange (fmtPorts p).toList p := by
  unfold parsePortRange
  rw [trim_fmtPorts]
  dsimp only
  by_cases hone : p.start = p.stop
  · have hlist : (fmtPorts p).toList = (toString p.start).toList := by rw [fmtPorts_toList, if_pos hone]
    have hsingle : PortRange.single p.start = p := by
      unfold PortRange.single
      cases p
      simp_all
    rw [hlist, Text.splitOnce_of_not_mem (dash_not_mem_port _), Text.parseU16_toString]
    show checkRange _ (PortRange.single p.start) = _
    rw [hsingle]
  · have hlist : (fmtPorts p).toList = (toString p.start).toList ++ '-' :: (toString p.stop).toList := by
      rw [fmtPorts_toList, if_neg hone]
    rw [hlist, Text.splitOnce_append (dash_not_mem_port _)]
    dsimp only
    rw [trim_port, trim_port, Text.parseU16_toString, Text.parseU16_toString]
    rfl

theorem parseProto_protoLabel (proto : ForwardProto) : parseProto (protoLabel proto) = .ok proto := by
  cases proto <;> rfl

theorem parseSource_sourceLabel (source : ForwardSource) : parseSource (sourceLabel source) = .ok source := by
  cases source with
  | auto => rfl
  | ip ip =>
    have hplain : Text.trimChars (ipv4String ip).toList = (ipv4String ip).toList := by
      apply Text.trimChars_of_plain
      intro c hc
      cases mem_ipv4String hc with
      | inl hdigit => exact Text.not_isWhitespace_of_isDigit hdigit
      | inr hdot => exact hdot ▸ (by decide)
    have hauto : ¬((ipv4String ip).toList = [] ∨ (ipv4String ip).toList.map Char.toLower = "auto".toList) := by
      intro h
      have hdot := dot_mem_ipv4String ip
      cases h with
      | inl hnil =>
        rw [hnil] at hdot
        cases hdot
      | inr hword =>
        have hmem : '.' ∈ (ipv4String ip).toList.map Char.toLower := List.mem_map.mpr ⟨'.', hdot, by decide⟩
        rw [hword] at hmem
        revert hmem
        decide
    unfold parseSource
    dsimp only [sourceLabel]
    rw [hplain, if_neg hauto, String.ofList_toList, parseIpv4_ipv4String]
    rfl

/-- A range that passes is the one that was checked. -/
theorem checkRange_cases (cs : List Char) (p : PortRange) :
    (p.start ≠ 0 ∧ p.isValid = true ∧ checkRange cs p = .ok p) ∨
      (¬(p.start ≠ 0 ∧ p.isValid = true) ∧ ∃ e, checkRange cs p = .error e) := by
  unfold checkRange
  by_cases hbad : (decide (p.start = 0) || !p.isValid) = true
  · rw [if_pos hbad]
    refine .inr ⟨?_, _, rfl⟩
    rintro ⟨hstart, hvalid⟩
    simp [hstart, hvalid] at hbad
  · rw [if_neg hbad]
    obtain ⟨hstart, hvalid⟩ : p.start ≠ 0 ∧ p.isValid = true := by simpa using hbad
    exact .inl ⟨hstart, hvalid, rfl⟩

/-- The arguments are read as the request they stand for, with its host trimmed, if both ranges pass. -/
theorem requestOf_commandLine (req : AddForwardRequest) : requestOf (commandLine req) = (do
    let _ ← checkRange (fmtPorts req.listen).toList req.listen
    let _ ← checkRange (fmtPorts req.destPort).toList req.destPort
    return { req with destHost := Text.trim req.destHost }) := by
  have hcolon : ":".toList = [':'] := String.toList_ofList
  have hports : ':' ∉ (fmtPorts req.destPort).toList := by
    intro hmem
    cases mem_fmtPorts hmem with
    | inl hdigit => revert hdigit; decide
    | inr hdash => revert hdash; decide
  have hsplit : Text.rsplitOnce ':' (req.destHost ++ ":" ++ fmtPorts req.destPort).toList =
      some (req.destHost.toList, (fmtPorts req.destPort).toList) := by
    unfold Text.rsplitOnce
    rw [String.toList_append, String.toList_append, hcolon, List.reverse_append, List.reverse_append,
      List.reverse_singleton, List.singleton_append,
      Text.splitOnce_append fun hmem => hports (List.mem_reverse.mp hmem)]
    simp
  unfold requestOf
  simp only [commandLine, hsplit, orError, parseProto_protoLabel, parseSource_sourceLabel, bind, Except.bind,
    parsePortRange_fmtPorts]
  rcases checkRange_cases (fmtPorts req.listen).toList req.listen with ⟨-, -, hlisten⟩ | ⟨-, e, hlisten⟩
  · rw [hlisten]
    rcases checkRange_cases (fmtPorts req.destPort).toList req.destPort with ⟨-, -, hdest⟩ | ⟨-, e, hdest⟩
    · rw [hdest]
      rfl
    · rw [hdest]
  · rw [hlisten]

end Reading

/-! ## Console and remote request -/

section Agreement

variable {a : DnatAdapter} {conf : Except String Unit} {defaultIface : Option String} {req : AddForwardRequest}

/-- What a rule may be stored with. -/
structure Sound (req : AddForwardRequest) : Prop where
  listen : 1 ≤ req.listen.start.toNat ∧ req.listen.start.toNat ≤ req.listen.stop.toNat ∧ req.listen.stop.toNat ≤ 65535
  dest : 1 ≤ req.destPort.start.toNat ∧ req.destPort.start.toNat ≤ req.destPort.stop.toNat ∧
    req.destPort.stop.toNat ≤ 65535
  lengths : req.destPort.start = req.destPort.stop ∨
    req.listen.stop.toNat - req.listen.start.toNat = req.destPort.stop.toNat - req.destPort.start.toNat
  host : Text.trim req.destHost ≠ ""
  iface : ∀ i ∈ req.iface, validIfaceName i = true
  target : ∀ ip ∈ parseIpv4 (Text.trim req.destHost), forbiddenForwardTarget ip = none

/-- The console accepts the request if and only if the remote check does, and who accepts it accepts a sound one. -/
structure Agrees (a : DnatAdapter) (conf : Except String Unit) (defaultIface : Option String)
    (req : AddForwardRequest) : Prop where
  same : (checkForwardRequest a conf defaultIface req).isOk = (acceptForward a conf defaultIface (commandLine req)).isOk
  remote : (checkForwardRequest a conf defaultIface req).isOk = true → Sound req
  console : (acceptForward a conf defaultIface (commandLine req)).isOk = true → Sound req

/-- The checks that the two have in common. -/
def passes (a : DnatAdapter) (conf : Except String Unit) (defaultIface : Option String) (req : AddForwardRequest) :
    Bool :=
  (validatePorts req.listen req.destPort).isOk && decide (Text.trim req.destHost ≠ "") &&
    (validateForwardInput req.iface req.destHost).isOk && !clashesWithDnat a conf defaultIface req

theorem checkForwardRequest_isOk :
    (checkForwardRequest a conf defaultIface req).isOk = passes a conf defaultIface req := by
  unfold checkForwardRequest passes
  cases validatePorts req.listen req.destPort with
  | error e => rfl
  | ok _ =>
    by_cases hhost : Text.trim req.destHost = ""
    · simp only [Except.mapError, hhost, if_true]
      rfl
    · rw [decide_eq_true hhost]
      simp only [Except.mapError, hhost, if_false]
      cases validateForwardInput req.iface req.destHost with
      | error e => rfl
      | ok _ => cases clashesWithDnat a conf defaultIface req <;> rfl

/-- On a trimmed host the checks of the console are the same ones. -/
theorem checkRequest_isOk :
    (checkRequest a conf defaultIface { req with destHost := Text.trim req.destHost }).isOk =
      passes a conf defaultIface req := by
  have hclash : clashesWithDnat a conf defaultIface { req with destHost := Text.trim req.destHost } =
      clashesWithDnat a conf defaultIface req := rfl
  unfold checkRequest passes validateForwardInput
  rw [hclash]
  dsimp only
  cases validatePorts req.listen req.destPort with
  | error e => rfl
  | ok _ =>
    by_cases hhost : Text.trim req.destHost = ""
    · simp only [hhost, if_true]
      rfl
    · rw [decide_eq_true hhost]
      simp only [hhost, if_false]
      cases req.iface.any fun i => !validIfaceName i with
      | true => rfl
      | false =>
        cases (parseIpv4 (Text.trim req.destHost)).bind forbiddenForwardTarget with
        | some why => rfl
        | none => cases clashesWithDnat a conf defaultIface req <;> rfl

theorem passes_iff : passes a conf defaultIface req = true ↔ (validatePorts req.listen req.destPort).isOk = true ∧
    Text.trim req.destHost ≠ "" ∧ (validateForwardInput req.iface req.destHost).isOk = true ∧
    clashesWithDnat a conf defaultIface req = false := by
  simp [passes, and_assoc]

theorem ports_of_passes (h : passes a conf defaultIface req = true) : req.listen.isValid = true ∧
    req.destPort.isValid = true ∧ (req.destPort.start = req.destPort.stop ∨
      req.listen.stop - req.listen.start = req.destPort.stop - req.destPort.start) := by
  have hok := (passes_iff.mp h).1
  cases hports : validatePorts req.listen req.destPort with
  | error e =>
    rw [hports] at hok
    cases hok
  | ok u => exact validatePorts_ok hports

/-- The console also wants the first ports not to be zero. -/
theorem acceptForward_isOk : (acceptForward a conf defaultIface (commandLine req)).isOk =
    (decide (req.listen.start ≠ 0) && decide (req.destPort.start ≠ 0) && passes a conf defaultIface req) := by
  have hvalid : passes a conf defaultIface req = true → req.listen.isValid = true ∧ req.destPort.isValid = true :=
    fun h => ⟨(ports_of_passes h).1, (ports_of_passes h).2.1⟩
  unfold acceptForward
  rw [requestOf_commandLine]
  rcases checkRange_cases (fmtPorts req.listen).toList req.listen with ⟨hl, -, hlisten⟩ | ⟨hl, e, hlisten⟩
  · rw [hlisten]
    rcases checkRange_cases (fmtPorts req.destPort).toList req.destPort with ⟨hd, -, hdest⟩ | ⟨hd, e, hdest⟩
    · rw [hdest, decide_eq_true hl, decide_eq_true hd, Bool.true_and, Bool.true_and, ← checkRequest_isOk]
      show Except.isOk
        (checkRequest a conf defaultIface { req with destHost := Text.trim req.destHost } >>= fun _ => _) = _
      cases checkRequest a conf defaultIface { req with destHost := Text.trim req.destHost } with
      | error e => rfl
      | ok _ => rfl
    · rw [hdest]
      refine Eq.symm (eq_false_of_ne_true fun htrue => ?_)
      simp only [Bool.and_eq_true, decide_eq_true_eq] at htrue
      exact hd ⟨htrue.1.2, (hvalid htrue.2).2⟩
  · rw [hlisten]
    refine Eq.symm (eq_false_of_ne_true fun htrue => ?_)
    simp only [Bool.and_eq_true, decide_eq_true_eq] at htrue
    exact hl ⟨htrue.1.1, (hvalid htrue.2).1⟩

/-- What passes the checks and has no port zero is sound. -/
theorem sound_of_passes (h : passes a conf defaultIface req = true) (hl : req.listen.start ≠ 0)
    (hd : req.destPort.start ≠ 0) : Sound req := by
  obtain ⟨hlisten, hdest, hlengths⟩ := ports_of_passes h
  obtain ⟨-, hhost, hinput, -⟩ := passes_iff.mp h
  have hlv : req.listen.start.toNat ≤ req.listen.stop.toNat := by
    simpa [PortRange.isValid, UInt16.le_iff_toNat_le] using hlisten
  have hdv : req.destPort.start.toNat ≤ req.destPort.stop.toNat := by
    simpa [PortRange.isValid, UInt16.le_iff_toNat_le] using hdest
  have hpos (p : UInt16) (hp : p ≠ 0) : 1 ≤ p.toNat :=
    Nat.one_le_iff_ne_zero.mpr fun hzero => hp (UInt16.toNat_inj.mp hzero)
  -- What the checks say of `u16` is said of numbers here.
  unfold validateForwardInput at hinput
  cases hiface : req.iface.any fun i => !validIfaceName i with
  | true =>
    rw [hiface] at hinput
    cases hinput
  | false =>
    rw [hiface, if_neg Bool.false_ne_true] at hinput
    refine ⟨⟨hpos _ hl, hlv, Nat.lt_succ_iff.mp (req.listen.stop.toNat_lt)⟩,
      ⟨hpos _ hd, hdv, Nat.lt_succ_iff.mp (req.destPort.stop.toNat_lt)⟩, ?_, hhost, ?_, ?_⟩
    · refine hlengths.imp_right fun hsame => ?_
      have hnat := congrArg UInt16.toNat hsame
      rwa [UInt16.toNat_sub_of_le _ _ (UInt16.le_iff_toNat_le.mpr hlv),
        UInt16.toNat_sub_of_le _ _ (UInt16.le_iff_toNat_le.mpr hdv)] at hnat
    · intro i hi
      rw [Option.mem_def.mp hi] at hiface
      simpa using hiface
    · intro ip hip
      rw [Option.mem_def.mp hip, Option.bind_some] at hinput
      cases hwhy : forbiddenForwardTarget ip with
      | none => rfl
      | some why =>
        rw [hwhy] at hinput
        cases hinput

/-- The two judge a request alike, and accept it only if it is sound, unless it has a port zero: the remote check
does not look for it. Such a request comes to nothing if another check fails. -/
theorem forwards_agree_iff (a : DnatAdapter) (conf : Except String Unit) (defaultIface : Option String)
    (req : AddForwardRequest) :
    Agrees a conf defaultIface req ↔ (req.listen.start ≠ 0 ∧ req.destPort.start ≠ 0) ∨
      (validatePorts req.listen req.destPort).isOk = false ∨ Text.trim req.destHost = "" ∨
      (validateForwardInput req.iface req.destHost).isOk = false ∨ clashesWithDnat a conf defaultIface req = true := by
  have hrefused : passes a conf defaultIface req = false ↔ (validatePorts req.listen req.destPort).isOk = false ∨
      Text.trim req.destHost = "" ∨ (validateForwardInput req.iface req.destHost).isOk = false ∨
      clashesWithDnat a conf defaultIface req = true := by
    rw [← Bool.not_eq_true, passes_iff]
    simp [imp_iff_or_not, or_comm, or_left_comm]
  rw [← hrefused]
  constructor
  · intro hagrees
    -- A request that passes and has a port zero is accepted by the one and refused by the other.
    cases hpasses : passes a conf defaultIface req with
    | false => exact .inr rfl
    | true =>
      have hsound := hagrees.remote (checkForwardRequest_isOk.trans hpasses)
      left
      constructor
      · intro hzero
        have hpos := hsound.listen.1
        rw [hzero] at hpos
        exact Nat.not_succ_le_zero _ hpos
      · intro hzero
        have hpos := hsound.dest.1
        rw [hzero] at hpos
        exact Nat.not_succ_le_zero _ hpos
  · intro hcond
    cases hpasses : passes a conf defaultIface req with
    | false =>
      have hremote : (checkForwardRequest a conf defaultIface req).isOk = false :=
        checkForwardRequest_isOk.trans hpasses
      have hconsole : (acceptForward a conf defaultIface (commandLine req)).isOk = false := by
        rw [acceptForward_isOk, hpasses, Bool.and_false]
      refine ⟨hremote.trans hconsole.symm, fun hok => ?_, fun hok => ?_⟩
      · rw [hremote] at hok
        cases hok
      · rw [hconsole] at hok
        cases hok
    | true =>
      obtain ⟨hl, hd⟩ : req.listen.start ≠ 0 ∧ req.destPort.start ≠ 0 :=
        hcond.resolve_right fun hfalse => by rw [hpasses] at hfalse; cases hfalse
      have hsound := sound_of_passes hpasses hl hd
      refine ⟨?_, fun _ => hsound, fun _ => hsound⟩
      rw [checkForwardRequest_isOk, acceptForward_isOk, decide_eq_true hl, decide_eq_true hd, Bool.true_and,
        Bool.true_and]

/-- A request that listens on the port zero. -/
def portZero : AddForwardRequest where
  proto := .tcp
  iface := some "eth0"
  listen := ⟨0, 0⟩
  destHost := "10.0.0.9"
  destPort := ⟨8443, 8443⟩
  source := .auto
  note := ""

/-- The remote check accepts it, and the console does not. -/
theorem port_zero_accepted :
    (checkForwardRequest ⟨false, "", []⟩ (.ok ()) none portZero).isOk = true ∧
      (acceptForward ⟨false, "", []⟩ (.ok ()) none (commandLine portZero)).isOk = false ∧ ¬Sound portZero ∧
      ¬Agrees ⟨false, "", []⟩ (.ok ()) none portZero := by
  have hremote : (checkForwardRequest ⟨false, "", []⟩ (.ok ()) none portZero).isOk = true := rfl
  have hconsole : (acceptForward ⟨false, "", []⟩ (.ok ()) none (commandLine portZero)).isOk = false := by
    rw [acceptForward_isOk]
    rfl
  have hsound : ¬Sound portZero := by
    intro hsound
    have hpos := hsound.listen.1
    revert hpos
    decide
  exact ⟨hremote, hconsole, hsound, fun hagrees => hsound (hagrees.remote hremote)⟩

end Agreement

end Ipgate.Cli
