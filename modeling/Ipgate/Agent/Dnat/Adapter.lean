-- SUMMARY: The adapter for the dnat tool: what it reads of its files, and taking a rule away from them.
import Ipgate.Agent.Dnat.Conf

/-!
# The dnat adapter

The agent shows the rules of dnat, removes them, and takes them over as its own. It
changes their file only; dnat itself brings the kernel in line with the file.
-/

namespace Ipgate

open Net

/-- What `state.json` of dnat says of a rule in effect. -/
structure DnatStateEntry where
  localPort : UInt16
  interface : String
  remoteIp : String
  deriving DecidableEq

/-- The dnat tool of the host: whether it is there and in use, and what is in its files. -/
structure DnatAdapter where
  present : Bool
  conf : String
  state : List DnatStateEntry

namespace DnatAdapter

variable (a : DnatAdapter)

/-- The conf as a call reads it: a file that cannot be read counts as empty. -/
def readConf (read : Except String Unit) : DnatAdapter := { a with conf := if read.isOk then a.conf else "" }

/-- `state.json` as a call reads it. -/
def readState (read : Except String Unit) : DnatAdapter := { a with state := if read.isOk then a.state else [] }

def rules : List DnatRule := Dnat.parseConf a.conf

def findRuleByPrefix (key : String) : Option DnatRule := a.rules.find? fun r => r.prefixKey = key

/-- The rules as forwards, with what dnat has resolved. -/
def list (encodeKey : String → String) : List UnifiedForwardView :=
  a.rules.map fun r =>
    let entry := a.state.find? fun e => e.localPort = r.listen.start ∧ e.interface = r.iface
    { origin := .dnat, proto := .both, iface := some r.iface, listen := r.listen, destHost := r.remoteHost
      destPort := r.destPort, source := r.source, note := ""
      resolvedIp := entry.bind fun e => parseIpv4 e.remoteIp
      active := entry.isSome, caps := ⟨false, true, true⟩, conflict := false, id := none
      dnatKey := some (encodeKey r.prefixKey) }

end DnatAdapter

/-- How taking the lock of the file, reading it, and replacing it turn out. -/
structure ConfAnswers where
  lock : Except String Unit
  read : Except String Unit
  write : Except String Unit

/-- Remove the rules with the key. A file that cannot be read counts as empty. -/
def removePrefix (answers : ConfAnswers) (key conf : String) : Except String Bool × String :=
  match answers.lock with
  | .error e => (.error e, conf)
  | .ok () =>
    let (text, removed) := Dnat.removeRuleLines (if answers.read.isOk then conf else "") key
    if removed then
      match answers.write with
      | .error e => (.error e, conf)
      | .ok () => (.ok true, text)
    else (.ok false, conf)

/-- The rule as a request to the agent. -/
def dnatRuleToAddRequest (r : DnatRule) : AddForwardRequest where
  proto := .both
  iface := some r.iface
  listen := r.listen
  destHost := r.remoteHost
  destPort := r.destPort
  source := r.source
  note := "迁移自 dnat"

/-! ## What removing leaves -/

section Spec

variable {answers : ConfAnswers} {key conf : String} {rule : DnatRule}

theorem DnatAdapter.findRuleByPrefix_eq_some {a : DnatAdapter} (h : a.findRuleByPrefix key = some rule) :
    rule ∈ a.rules ∧ rule.prefixKey = key := by
  unfold findRuleByPrefix at h
  exact ⟨List.mem_of_find?_eq_some h, by simpa using List.find?_some h⟩

/-- An error leaves the file as it is. -/
theorem removePrefix_error {e : String} (h : (removePrefix answers key conf).1 = .error e) :
    (removePrefix answers key conf).2 = conf := by
  unfold removePrefix at h ⊢
  cases hlock : answers.lock with
  | error e => rfl
  | ok =>
    rw [hlock] at h
    dsimp only at h ⊢
    generalize Dnat.removeRuleLines (if answers.read.isOk then conf else "") key = r at h ⊢
    cases hremoved : r.2 with
    | false => rfl
    | true =>
      rw [hremoved] at h
      cases hwrite : answers.write with
      | error e => rfl
      | ok =>
        rw [hwrite] at h
        cases h

/-- A rule in a file that can be read is removed, or there is an error. -/
theorem removePrefix_ok {removed : Bool} (hrule : rule ∈ Dnat.parseConf conf) (hkey : rule.prefixKey = key)
    (hread : answers.read = .ok ()) (h : (removePrefix answers key conf).1 = .ok removed) :
    (removePrefix answers key conf).2 = (Dnat.removeRuleLines conf key).1 := by
  have hremoved := Dnat.removeRuleLines_removed.mpr ⟨rule, hrule, hkey⟩
  unfold removePrefix at h ⊢
  cases hlock : answers.lock with
  | error e =>
    rw [hlock] at h
    cases h
  | ok =>
    rw [hlock, hread] at h
    rw [hread]
    simp only [Except.isOk, Except.toBool, if_true, hremoved] at h ⊢
    cases hwrite : answers.write with
    | error e =>
      rw [hwrite] at h
      cases h
    | ok => rfl

/-- A file that cannot be read is left as it is, without an error. -/
theorem removePrefix_unreadable {e : String} (hlock : answers.lock = .ok ()) (hread : answers.read = .error e) :
    removePrefix answers key conf = (.ok false, conf) := by
  have hempty : Dnat.removeRuleLines "" key = ("", false) := rfl
  unfold removePrefix
  rw [hlock, hread]
  simp [Except.isOk, Except.toBool, hempty]

end Spec

end Ipgate
