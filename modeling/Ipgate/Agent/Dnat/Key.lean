-- SUMMARY: The keys that clients name dnat rules by: the way to the client and back, and removing exactly the named rule.
import Ipgate.Agent.Dnat.Adapter
import Ipgate.Lib.Base64

/-!
# Keys of dnat rules

A key has characters that mean something in a URL, so clients get it in base64. What they
send back names a range and an interface, and all rules for these are removed.
-/

namespace Ipgate.Dnat

/-- The engine for base64 of a library. -/
structure Base64Engine where
  encode : List UInt8 → String
  decode : String → Option (List UInt8)

section Keys

variable (E : Base64Engine)

def encodeKey (key : String) : String := E.encode key.toUTF8.data.toList

/-- The key that was encoded. What is not base64, or not UTF-8, is none. -/
def decodeKey (key : String) : Option String :=
  (E.decode key).bind fun bytes => String.fromUTF8? ⟨bytes.toArray⟩

theorem fromUTF8_toUTF8 (s : String) : String.fromUTF8? ⟨s.toUTF8.data.toList.toArray⟩ = some s := by
  have hvalid : s.toUTF8.IsValidUTF8 := s.isValidUTF8
  show String.fromUTF8? s.toUTF8 = some s
  unfold String.fromUTF8?
  rw [dif_pos hvalid]
  rfl

variable {E}

theorem decodeKey_encodeKey (hE : ∀ bytes, E.decode (E.encode bytes) = some bytes) (key : String) :
    decodeKey E (encodeKey E key) = some key := by
  unfold decodeKey encodeKey
  rw [hE, Option.bind_some]
  exact fromUTF8_toUTF8 key

end Keys

/-! ## Removing by a key -/

/-- The rules for the range and the interface of a rule are gone from the file, and nothing else. -/
structure Removed (rule : DnatRule) (text text' : String) : Prop where
  rules : parseConf text' = (parseConf text).filter fun r => ¬(r.listen = rule.listen ∧ r.iface = rule.iface)
  remarks : remarks text' = remarks text

theorem removed_removeRuleLines (rule : DnatRule) (text : String) :
    Removed rule text (removeRuleLines text rule.prefixKey).1 where
  rules := by
    rw [parseConf_removeRuleLines]
    exact List.filter_congr fun r _ => decide_eq_decide.mpr (not_congr prefixKey_eq_iff)
  remarks := remarks_removeRuleLines

theorem find_prefixKey {a : DnatAdapter} {rule : DnatRule} (h : rule ∈ a.rules) :
    ∃ found, a.findRuleByPrefix rule.prefixKey = some found ∧ found.listen = rule.listen ∧ found.iface = rule.iface := by
  have hsome : (a.findRuleByPrefix rule.prefixKey).isSome :=
    List.find?_isSome.mpr ⟨rule, h, decide_eq_true rfl⟩
  obtain ⟨found, hfound⟩ := Option.isSome_iff_exists.mp hsome
  exact ⟨found, hfound, prefixKey_eq_iff.mp (DnatAdapter.findRuleByPrefix_eq_some hfound).2⟩

/-- What was removed is not there to be removed again. -/
theorem removed_twice (text key : String) : (removeRuleLines (removeRuleLines text key).1 key).2 = false := by
  rw [Bool.eq_false_iff]
  intro htwice
  obtain ⟨r, hr, hkey⟩ := removeRuleLines_removed.mp htwice
  rw [parseConf_removeRuleLines] at hr
  exact of_decide_eq_true (List.mem_filter.mp hr).2 hkey

/-- The key of a rule comes back from the client as it was, finds a rule for the same range and
interface, and removes the rules for these and nothing else. Another key removes nothing, and no
key removes anything twice. -/
theorem removed_by_key (E : Base64Engine) (hE : ∀ bytes, E.decode (E.encode bytes) = some bytes) (a : DnatAdapter) :
    (∀ rule ∈ a.rules, ∃ key, decodeKey E (encodeKey E rule.prefixKey) = some key ∧
      (∃ found, a.findRuleByPrefix key = some found ∧ found.listen = rule.listen ∧ found.iface = rule.iface) ∧
      (removeRuleLines a.conf key).2 = true ∧ Removed rule a.conf (removeRuleLines a.conf key).1) ∧
    (∀ key, (∀ rule ∈ a.rules, rule.prefixKey ≠ key) →
      (removeRuleLines a.conf key).2 = false ∧ parseConf (removeRuleLines a.conf key).1 = parseConf a.conf) ∧
    ∀ key, (removeRuleLines (removeRuleLines a.conf key).1 key).2 = false := by
  refine ⟨fun rule hrule => ?_, fun key hnone => ?_, removed_twice a.conf⟩
  · refine ⟨rule.prefixKey, decodeKey_encodeKey hE _, find_prefixKey hrule, ?_, removed_removeRuleLines rule a.conf⟩
    exact removeRuleLines_removed.mpr ⟨rule, hrule, rfl⟩
  · have hkept : (parseConf a.conf).filter (fun r => r.prefixKey ≠ key) = parseConf a.conf :=
      List.filter_eq_self.mpr fun r hr => decide_eq_true (hnone r hr)
    refine ⟨Bool.eq_false_iff.mpr fun hremoved => ?_, ?_⟩
    · obtain ⟨r, hr, hkey⟩ := removeRuleLines_removed.mp hremoved
      exact hnone r hr hkey
    · rw [parseConf_removeRuleLines, hkept]

/-! ### A rule between lookalikes -/

/-- Base64 for URLs, without padding. -/
def urlSafe : Base64Engine where
  encode bytes := String.ofList (Base64.encode bytes)
  decode key := Base64.decode key.toList

theorem urlSafe_decode_encode (bytes : List UInt8) : urlSafe.decode (urlSafe.encode bytes) = some bytes := by
  show Base64.decode (String.ofList (Base64.encode bytes)).toList = some bytes
  rw [String.toList_ofList, Base64.decode_encode]

/-- Two rules for port 443 of one interface, one for port 4430, and lines that are no rules. -/
def lookalikes : DnatAdapter where
  present := true
  conf := "# web\r\n443>eth0>192.0.2.1:8443>auto\r\n4430>eth0>192.0.2.1:9000>auto\nGARBAGE\n 0443 > eth0 > web.example:80 >"
  state := []

theorem lookalikes_removed :
    encodeKey urlSafe "443>eth0>" = "NDQzPmV0aDA-" ∧ ∃ key, decodeKey urlSafe "NDQzPmV0aDA-" = some key ∧
      (removeRuleLines lookalikes.conf key).2 = true ∧
      Removed ⟨.single 443, "eth0", "192.0.2.1", .single 8443, .auto⟩ lookalikes.conf
        (removeRuleLines lookalikes.conf key).1 := by
  have hconf : lookalikes.conf.toList = _ := String.toList_ofList
  have hrule : ⟨.single 443, "eth0", "192.0.2.1", .single 8443, .auto⟩ ∈ lookalikes.rules := by
    unfold DnatAdapter.rules parseConf
    rw [hconf]
    decide +kernel
  obtain ⟨hall, -, -⟩ := removed_by_key urlSafe urlSafe_decode_encode lookalikes
  obtain ⟨key, hdecoded, -, hremoved, hleft⟩ := hall _ hrule
  have hencoded : encodeKey urlSafe "443>eth0>" = "NDQzPmV0aDA-" := by decide +kernel
  exact ⟨hencoded, key, hencoded ▸ hdecoded, hremoved, hleft⟩

end Ipgate.Dnat
