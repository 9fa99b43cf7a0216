-- SUMMARY: The rules file of the dnat tool: reading its lines, and removing the rules of one key.
import Ipgate.Agent.Forward

/-!
# The rules of dnat

dnat is another tool that forwards ports. Its file has a rule on each line, as
`port>interface>host:port>source`. A rule is named by its key: the part up to the second `>`.
Lines that are no rules are kept as they are.
-/

namespace Ipgate

open Net

structure DnatRule where
  listen : PortRange
  iface : String
  remoteHost : String
  destPort : PortRange
  source : ForwardSource
  deriving DecidableEq

namespace Dnat

def portSpec (p : PortRange) : String :=
  if p.start = p.stop then toString p.start else toString p.start ++ "-" ++ toString p.stop

end Dnat

/-- The key of a rule. -/
def DnatRule.prefixKey (r : DnatRule) : String := Dnat.portSpec r.listen ++ ">" ++ r.iface ++ ">"

namespace Dnat

/-! ## Reading -/

/-- A port, or two of them with the second greater than the first. -/
def parsePortRange (cs : List Char) : Except String PortRange :=
  let s := Text.trimChars cs
  match Text.splitOnce '-' s with
  | some (a, b) => do
    let start ← orError ("非法端口段起点 " ++ Text.debug (String.ofList a)) (Text.parseU16 (Text.trimChars a))
    let stop ← orError ("非法端口段终点 " ++ Text.debug (String.ofList b)) (Text.parseU16 (Text.trimChars b))
    if start = 0 then .error "端口不能为 0"
    else if stop ≤ start then
      .error ("端口段终点须大于起点: " ++ toString start ++ "-" ++ toString stop)
    else .ok ⟨start, stop⟩
  | none => do
    let p ← orError ("非法端口 " ++ Text.debug (String.ofList s)) (Text.parseU16 s)
    if p = 0 then .error "端口不能为 0" else .ok (PortRange.single p)

/-- The remote side: a host and its ports. A host has no colon. -/
def parseRemote (cs : List Char) : Except String (String × PortRange) := do
  let (host, rport) ← orError ("远端应为 host:port: " ++ Text.debug (String.ofList cs)) (Text.rsplitOnce ':' cs)
  let host := Text.trimChars host
  if host = [] then .error "远端主机为空"
  else do
    let destPort ← parsePortRange rport
    return (String.ofList host, destPort)

def parseSource (cs : List Char) : Except String ForwardSource :=
  let s := String.ofList (Text.trimChars cs)
  if s = "" ∨ s = "auto" then .ok .auto
  else (orError ("非法源 IP " ++ Text.debug s) (parseIpv4 s)).map ForwardSource.ip

/-- Two ranges must be of one length. -/
def checkRanges (listen dest : PortRange) : Except String Unit :=
  if listen.start ≠ listen.stop ∧ dest.start ≠ dest.stop ∧
      listen.stop - listen.start ≠ dest.stop - dest.start then
    .error ("端口段长度不一致: " ++ toString listen.start ++ "-" ++ toString listen.stop ++
      " vs " ++ toString dest.start ++ "-" ++ toString dest.stop)
  else .ok ()

def parseFields (listen iface remote source : List Char) : Except String DnatRule := do
  let listen ← parsePortRange listen
  let iface := Text.trimChars iface
  if iface = [] then .error "网卡为空"
  else do
    let (remoteHost, destPort) ← parseRemote remote
    checkRanges listen destPort
    let source ← parseSource source
    return ⟨listen, String.ofList iface, remoteHost, destPort, source⟩

/-- A line of the file: a rule, nothing for an empty line or a comment, or an error. -/
def parseLine (line : List Char) : Except String (Option DnatRule) :=
  let t := Text.trimChars line
  if t = [] ∨ t.head? = some '#' then .ok none
  else
    match t.splitOn '>' with
    | [listen, iface, remote, source] => (parseFields listen iface remote source).map some
    | _ => .error ("格式错误，应为 4 段以 '>' 分隔: " ++ Text.debug (String.ofList t))

/-- The rule of a line that has one. -/
def lineRule (line : List Char) : Option DnatRule := (parseLine line).toOption.join

/-- The rules of the file. Lines that cannot be read are skipped. -/
def parseConf (text : String) : List DnatRule := (Text.lines text.toList).filterMap lineRule

/-! ## Removing -/

/-- The line is a rule with the key. -/
def isRuleOf (key : String) (line : List Char) : Bool :=
  match lineRule line with
  | some rule => rule.prefixKey = key
  | none => false

/-- The text without the rules that have exactly the key, and whether there were any. -/
def removeRuleLines (text key : String) : String × Bool :=
  let ls := Text.lines text.toList
  (String.ofList (Text.unlines (ls.filter fun l => !isRuleOf key l)), ls.any (isRuleOf key))

/-! ## What is read after removing -/

/-- What stands in a line that is neither empty nor a rule: a comment, or text that is no rule. -/
def remark (line : List Char) : Option (List Char) :=
  if Text.trimChars line ≠ [] ∧ (lineRule line).isNone then some (Text.trimChars line) else none

def remarks (text : String) : List (List Char) := (Text.lines text.toList).filterMap remark

section Spec

variable {text key : String} {line : List Char}

theorem lineRule_stripCr (line : List Char) : lineRule (Text.stripCr line) = lineRule line := by
  unfold lineRule parseLine
  rw [Text.trimChars_stripCr]

/-- The rules that are left are those with other keys. -/
theorem parseConf_removeRuleLines : parseConf (removeRuleLines text key).1 =
    (parseConf text).filter fun r => r.prefixKey ≠ key := by
  have hlines : ∀ l ∈ (Text.lines text.toList).filter fun l => !isRuleOf key l, '\n' ∉ l :=
    fun l hl => Text.not_mem_lines (List.mem_filter.mp hl).1
  unfold parseConf removeRuleLines
  rw [String.toList_ofList, Text.filterMap_lines_unlines lineRule_stripCr rfl hlines, List.filter_filterMap,
    List.filterMap_filter]
  refine List.filterMap_congr fun l _ => ?_
  unfold isRuleOf
  cases hrule : lineRule l with
  | none => rfl
  | some r => by_cases hkey : r.prefixKey = key <;> simp [Option.filter, hkey]

theorem remark_stripCr (line : List Char) : remark (Text.stripCr line) = remark line := by
  unfold remark
  rw [Text.trimChars_stripCr, lineRule_stripCr]

/-- Nothing but rules is removed. -/
theorem remarks_removeRuleLines : remarks (removeRuleLines text key).1 = remarks text := by
  have hlines : ∀ l ∈ (Text.lines text.toList).filter fun l => !isRuleOf key l, '\n' ∉ l :=
    fun l hl => Text.not_mem_lines (List.mem_filter.mp hl).1
  unfold remarks removeRuleLines
  rw [String.toList_ofList, Text.filterMap_lines_unlines remark_stripCr rfl hlines, List.filterMap_filter]
  refine List.filterMap_congr fun l _ => ?_
  cases hrule : isRuleOf key l with
  | false => rfl
  | true =>
    unfold isRuleOf at hrule
    unfold remark
    split at hrule
    · next rule hline => simp [hline]
    · cases hrule

/-- Something is removed exactly when a rule has the key. -/
theorem removeRuleLines_removed : (removeRuleLines text key).2 = true ↔ ∃ r ∈ parseConf text, r.prefixKey = key := by
  unfold removeRuleLines parseConf
  simp only [List.any_eq_true, List.mem_filterMap]
  constructor
  · rintro ⟨l, hl, hrule⟩
    unfold isRuleOf at hrule
    split at hrule
    · next rule hline => exact ⟨rule, ⟨l, hl, hline⟩, of_decide_eq_true hrule⟩
    · cases hrule
  · rintro ⟨r, ⟨l, hl, hline⟩, hkey⟩
    refine ⟨l, hl, ?_⟩
    unfold isRuleOf
    rw [hline]
    exact decide_eq_true hkey

/-! ## Keys -/

section Keys

variable {p q : PortRange} {r r' : DnatRule} {n : ℕ} {c : Char}

theorem port_inj {a b : UInt16} (h : (toString a).toList = (toString b).toList) : a = b := by
  have hread := congrArg Text.parseU16 h
  rw [Text.parseU16_toString, Text.parseU16_toString] at hread
  exact Option.some.inj hread

/-- The ports in a key are those of one range. -/
theorem portSpec_inj (h : portSpec p = portSpec q) : p = q := by
  have hdash (port : UInt16) : '-' ∉ (toString port).toList := fun hmem => by cases Text.isDigit_of_mem_port hmem
  obtain ⟨pstart, pstop⟩ := p
  obtain ⟨qstart, qstop⟩ := q
  have hchars := congrArg String.toList h
  unfold portSpec at hchars
  dsimp only at hchars
  split at hchars
  · next hp =>
    split at hchars
    · next hq =>
      subst hp hq
      rw [port_inj hchars]
    · next hq =>
      refine (hdash pstart ?_).elim
      rw [hchars]
      simp
  · next hp =>
    split at hchars
    · next hq =>
      refine (hdash qstart ?_).elim
      rw [← hchars]
      simp
    · next hq =>
      simp only [String.toList_append, List.append_assoc] at hchars
      obtain ⟨hstart, hstop⟩ := Text.append_cons_inj (hdash pstart) (hdash qstart) hchars
      rw [port_inj hstart, port_inj hstop]

theorem not_mem_portSpec : '>' ∉ (portSpec p).toList := by
  have hport (port : UInt16) : '>' ∉ (toString port).toList := fun hmem => by cases Text.isDigit_of_mem_port hmem
  unfold portSpec
  split
  · exact hport p.start
  · simp [hport]

/-- A key is that of one range and interface. -/
theorem prefixKey_eq_iff : r.prefixKey = r'.prefixKey ↔ r.listen = r'.listen ∧ r.iface = r'.iface := by
  constructor
  · intro h
    have hchars := congrArg String.toList h
    unfold DnatRule.prefixKey at hchars
    simp only [String.toList_append, List.append_assoc] at hchars
    obtain ⟨hlisten, hiface⟩ := Text.append_cons_inj not_mem_portSpec not_mem_portSpec hchars
    exact ⟨portSpec_inj (String.toList_injective hlisten), String.toList_injective (List.append_cancel_right hiface)⟩
  · intro h
    unfold DnatRule.prefixKey
    rw [h.1, h.2]

end Keys

end Spec

/-- A comment, a line that is no rule and the line endings of another system. -/
example : parseConf "# web\r\n443>eth0>192.0.2.1:8443>auto\r\nGARBAGE\n53>eth0>dns.example:53>" =
    [⟨.single 443, "eth0", "192.0.2.1", .single 8443, .auto⟩, ⟨.single 53, "eth0", "dns.example", .single 53, .auto⟩] := by
  decide +kernel

end Dnat

end Ipgate
