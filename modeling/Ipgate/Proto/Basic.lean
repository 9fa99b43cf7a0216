-- SUMMARY: Protocol types shared by client and agent: ids, times, errors, and the entries of the allowlist.
import Ipgate.Lib.Ip

/-!
# Protocol types

The identifiers, the error payload and the allowlist types of the protocol
crate. Identifiers are random UUIDs; here they are opaque numbers.
-/

namespace Ipgate

open Net

/-! ## Identifiers -/

/-- A device, named when it is paired. -/
structure DeviceId where
  val : Nat
  deriving DecidableEq

/-- An entry of the allowlist. -/
structure EntryId where
  val : Nat
  deriving DecidableEq

/-- A port forward. -/
structure ForwardId where
  val : Nat
  deriving DecidableEq

/-! ## Time -/

/-- A UTC time in nanoseconds. -/
abbrev DateTime := Int

/-- The whole seconds of a duration, rounded toward zero. -/
def numSeconds (d : Int) : Int := d.tdiv 1000000000

/-! ## Devices -/

/-- The static key of a device, in base64. -/
abbrev NoisePublicKey := String

/-- A device that may connect. -/
structure Device where
  id : DeviceId
  name : String
  pubkey : NoisePublicKey
  createdAt : DateTime
  lastSeen : Option DateTime
  deriving DecidableEq

/-! ## Errors -/

inductive ErrorCode where
  | unauthorized
  | pairingInvalid
  | deviceUnknown
  | challengeInvalid
  | badRequest
  | wouldLockOut
  | conflict
  | rateLimited
  | notFound
  | nftFailure
  | internal
  deriving DecidableEq

structure ApiError where
  code : ErrorCode
  message : String
  deriving DecidableEq

/-! ## The allowlist -/

/-- An entry of the allowlist. The target keeps its host bits as the user wrote them. -/
structure Entry where
  id : EntryId
  target : IpNet
  note : String
  expiresAt : Option DateTime
  createdAt : DateTime
  createdBy : DeviceId
  deriving DecidableEq

/-- Whether the entry has expired at `now`. -/
def Entry.isExpired (e : Entry) (now : DateTime) : Bool :=
  match e.expiresAt with
  | some t => t ≤ now
  | none => false

/-- An expired entry stays expired. -/
theorem Entry.isExpired_mono {e : Entry} {now now' : DateTime} (hle : now ≤ now')
    (h : e.isExpired now) : e.isExpired now' := by
  unfold Entry.isExpired at *
  split at h
  · exact decide_eq_true (Int.le_trans (of_decide_eq_true h) hle)
  · cases h

/-- An entry that has not expired had not expired before. -/
theorem not_expired_of_le {e : Entry} {now now' : DateTime} (hle : now ≤ now')
    (h : e.isExpired now' = false) : e.isExpired now = false := by
  rw [Bool.eq_false_iff] at h ⊢
  exact fun hexp => h (e.isExpired_mono hle hexp)

structure AllowRequest where
  target : IpNet
  note : String
  expiresAt : Option DateTime
  deriving DecidableEq

inductive RevokeRequest where
  | id (id : EntryId)
  | target (target : IpNet)
  deriving DecidableEq

/-- The allowlist at a revision. -/
structure Allowlist where
  entries : List Entry
  revision : Nat
  deriving DecidableEq

/-- An element of a kernel set, as listed. -/
structure KernelElement where
  target : IpNet
  expiresAt : Option DateTime
  deriving DecidableEq

/-- The difference between the stored entries and the kernel set. -/
structure Diff where
  missingInKernel : List IpNet
  staleInKernel : List IpNet
  expired : List IpNet
  deriving DecidableEq

def Diff.isEmpty (d : Diff) : Bool :=
  d.missingInKernel.isEmpty && d.staleInKernel.isEmpty && d.expired.isEmpty

end Ipgate
