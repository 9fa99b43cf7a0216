-- SUMMARY: The file of pending pairing codes, and what creating and consuming a code make of it.
import Mathlib.Data.List.Nodup
import Ipgate.Lib.Act
import Ipgate.Lib.Text
import Ipgate.Proto.Basic

/-!
# Pairing codes

A code is created on the command line and consumed by the daemon, once and before it
expires. They share a file with the hashes of the codes that are pending. Both read
the whole file, drop what has expired, and write the whole file back.
-/

namespace Ipgate.Pairing

open Act

/-- A pairing code as it is printed. -/
abbrev PairingCode := String

structure PendingCode where
  hash : String
  expiresAt : DateTime
  deriving DecidableEq

structure Pending where
  codes : List PendingCode
  deriving DecidableEq

/-- The file of pending codes. -/
inductive File where
  | missing
  | pending (p : Pending)
  /-- It cannot be read, or is not what `save` writes. -/
  | unreadable (why : String)
  deriving DecidableEq

def load : Act File String Pending := do
  match ← .get with
  | .missing => return ⟨[]⟩
  | .pending p => return p
  | .unreadable why => .fail why

/-- The disk takes the file, or gives an error and keeps the one it has. -/
def save (disk : Except String Unit) (p : Pending) : Act File String Unit :=
  match disk with
  | .ok () => .modify fun _ => .pending p
  | .error why => .fail why

/-- The text of the eight random bytes of a new code. -/
def newCode (random : Vector UInt8 8) : PairingCode := Text.toHex random.toList

/-- When a code expires that is created at `now`. -/
def expiry (now : DateTime) (ttlSecs : UInt64) : DateTime := now + ttlSecs.toInt64.toInt * 1000000000

/-- The codes that have not expired. -/
def Pending.live (p : Pending) (now : DateTime) : List PendingCode := p.codes.filter fun c => now < c.expiresAt

section Codes

variable (sha256 : ByteArray → List UInt8)

def codeHash (code : PairingCode) : String := Text.toHex (sha256 code.toUTF8)

/-- The pending codes with a new one. -/
def Pending.issue (p : Pending) (code : PairingCode) (ttlSecs : UInt64) (now : DateTime) : Pending :=
  ⟨p.live now ++ [⟨codeHash sha256 code, expiry now ttlSecs⟩]⟩

/-- Whether the code is pending, and the pending codes without it. -/
def Pending.redeem (p : Pending) (code : PairingCode) (now : DateTime) : Bool × Pending :=
  match (p.live now).findIdx? fun c => c.hash = codeHash sha256 code with
  | some i => (true, ⟨(p.live now).eraseIdx i⟩)
  | none => (false, ⟨p.live now⟩)

/-- Create a code of the given random bytes. -/
def create (disk : Except String Unit) (random : Vector UInt8 8) (ttlSecs : UInt64) (now : DateTime) :
    Act File String PairingCode := do
  let pending ← load
  save disk (pending.issue sha256 (newCode random) ttlSecs now)
  return newCode random

/-- Consume a code: whether it was pending. -/
def consume (disk : Except String Unit) (code : PairingCode) (now : DateTime) : Act File String Bool := do
  let pending ← load
  let (ok, rest) := pending.redeem sha256 code now
  .onlyIf (ok || rest.codes.length ≠ pending.codes.length) (save disk rest)
  return ok

end Codes

/-! ## What becomes of the codes -/

section Spec

variable {sha256 : ByteArray → List UInt8} {p p' : Pending} {code : PairingCode} {now : DateTime} {c : PendingCode}

theorem mem_live : c ∈ p.live now ↔ c ∈ p.codes ∧ now < c.expiresAt := by
  simp [Pending.live]

theorem nodup_live (h : (p.codes.map PendingCode.hash).Nodup) : ((p.live now).map PendingCode.hash).Nodup :=
  h.sublist (List.filter_sublist.map _)

/-- Only the codes that have not expired count. -/
theorem issue_congr (h : p.live now = p'.live now) (ttlSecs : UInt64) :
    p.issue sha256 code ttlSecs now = p'.issue sha256 code ttlSecs now := by
  rw [Pending.issue, Pending.issue, h]

theorem redeem_congr (h : p.live now = p'.live now) : p.redeem sha256 code now = p'.redeem sha256 code now := by
  rw [Pending.redeem, Pending.redeem, h]

theorem mem_issue {ttlSecs : UInt64} : c ∈ (p.issue sha256 code ttlSecs now).codes ↔
    c ∈ p.live now ∨ c = ⟨codeHash sha256 code, expiry now ttlSecs⟩ := by
  simp [Pending.issue]

/-- A code is accepted when it is pending and has not expired. -/
theorem redeem_true : (p.redeem sha256 code now).1 = true ↔ ∃ c ∈ p.live now, c.hash = codeHash sha256 code := by
  unfold Pending.redeem
  split
  · next i hi =>
    obtain ⟨hlt, hhash, -⟩ := List.findIdx?_eq_some_iff_getElem.mp hi
    exact iff_of_true rfl ⟨_, List.getElem_mem hlt, by simpa using hhash⟩
  · next hnone =>
    refine iff_of_false nofun ?_
    rintro ⟨c, hc, hhash⟩
    have hne := List.findIdx?_eq_none_iff.mp hnone c hc
    simp [hhash] at hne

/-- What has the hash of the first element found is that element, and it is erased. -/
theorem mem_eraseIdx_hash {cs : List PendingCode} {hash : String} {i : ℕ} (hnodup : (cs.map PendingCode.hash).Nodup)
    (hlt : i < cs.length) (hhash : cs[i].hash = hash) : c ∈ cs.eraseIdx i ↔ c ∈ cs ∧ c.hash ≠ hash := by
  rw [List.mem_eraseIdx_iff_getElem]
  constructor
  · rintro ⟨j, hj, hne, rfl⟩
    refine ⟨List.getElem_mem hj, fun heq => hne ?_⟩
    have hj' : j < (cs.map PendingCode.hash).length := by simpa using hj
    have hlt' : i < (cs.map PendingCode.hash).length := by simpa using hlt
    have hsame : (cs.map PendingCode.hash)[j] = (cs.map PendingCode.hash)[i] := by simp [heq, hhash]
    exact hnodup.getElem_inj_iff.mp hsame
  · rintro ⟨hc, hne⟩
    obtain ⟨j, hj, rfl⟩ := List.getElem_of_mem hc
    refine ⟨j, hj, ?_, rfl⟩
    rintro rfl
    exact hne hhash

/-- What is left are the other codes. -/
theorem mem_redeem (hnodup : (p.codes.map PendingCode.hash).Nodup) :
    c ∈ (p.redeem sha256 code now).2.codes ↔ c ∈ p.live now ∧ c.hash ≠ codeHash sha256 code := by
  unfold Pending.redeem
  split
  · next i hi =>
    obtain ⟨hlt, hhash, -⟩ := List.findIdx?_eq_some_iff_getElem.mp hi
    exact mem_eraseIdx_hash (nodup_live hnodup) hlt (by simpa using hhash)
  · next hnone =>
    refine (and_iff_left_of_imp fun hc => ?_).symm
    simpa using List.findIdx?_eq_none_iff.mp hnone c hc

theorem nodup_redeem (hnodup : (p.codes.map PendingCode.hash).Nodup) :
    ((p.redeem sha256 code now).2.codes.map PendingCode.hash).Nodup := by
  unfold Pending.redeem
  split
  · next i hi => exact (nodup_live hnodup).sublist ((List.eraseIdx_sublist _ i).map _)
  · exact nodup_live hnodup

theorem nodup_issue {ttlSecs : UInt64} (hnodup : (p.codes.map PendingCode.hash).Nodup)
    (hnew : ∀ c ∈ p.live now, c.hash ≠ codeHash sha256 code) :
    ((p.issue sha256 code ttlSecs now).codes.map PendingCode.hash).Nodup := by
  simp only [Pending.issue, List.map_append, List.map_cons, List.map_nil]
  refine List.nodup_append.mpr ⟨nodup_live hnodup, List.nodup_singleton _, ?_⟩
  rintro hash hmem _ hlast rfl
  obtain ⟨c, hc, rfl⟩ := List.mem_map.mp hmem
  exact hnew c hc (List.mem_singleton.mp hlast)

/-- Codes whose bytes have different digests have different hashes. -/
theorem codeHash_inj {code' : PairingCode} (h : codeHash sha256 code = codeHash sha256 code') :
    sha256 code.toUTF8 = sha256 code'.toUTF8 := Text.toHex_inj h

/-- A code that is pending and has not expired is accepted, if the disk takes the file. -/
theorem consume_accepts {file : File} (hload : load file = (.ok p, file))
    (hlive : ∃ c ∈ p.live now, c.hash = codeHash sha256 code) :
    Act.wp (consume sha256 (.ok ()) code now) (fun r _ => r = .ok true) file := by
  have htrue : (p.redeem sha256 code now).1 = true := redeem_true.mpr hlive
  unfold Act.wp consume
  rw [bind_run_ok hload]
  simp only [htrue, Bool.true_or]
  rfl

end Spec

end Ipgate.Pairing
