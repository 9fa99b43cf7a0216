-- SUMMARY: The decision of a handshake: who is let in, who is paired, and what a refusal leaves behind.
import Ipgate.Agent.Api.Handlers
import Ipgate.Agent.Auth.Pairing

/-!
# Authorization

A handshake authenticates a key. A key of the device list is let in; any other key
needs a pairing code, which is consumed before the device is registered.
-/

namespace Ipgate

open Act

/-- What a client sends along with its first message. -/
structure HandshakeHello where
  pairingCode : Option Pairing.PairingCode
  deviceName : Option String
  deriving DecidableEq

structure HandshakeAck where
  deviceId : DeviceId
  paired : Bool
  deriving DecidableEq

/-- What a handshake works on: the store with its world, and the file of pending codes. -/
structure Daemon (κ : Type) where
  world : World κ
  codes : Pairing.File

def onWorld {κ ε α : Type} (m : Act (World κ) ε α) : Act (Daemon κ) ε α :=
  .zoom Daemon.world (fun w d => { d with world := w }) m

def onCodes {κ ε α : Type} (m : Act Pairing.File ε α) : Act (Daemon κ) ε α :=
  .zoom Daemon.codes (fun f d => { d with codes := f }) m

/-- The device that a hello asks to register. -/
def newDevice (peer : NoisePublicKey) (hello : HandshakeHello) (now : DateTime) (id : DeviceId) : Device where
  id := id
  name := (hello.deviceName.filter fun n => Text.trim n ≠ "").getD "未命名设备"
  pubkey := peer
  createdAt := now
  lastSeen := some now

def codeMissing : String := "未配对设备且未提供配对码"

def codeRefused : String := "配对码无效 / 过期 / 已用"

section Authorize

variable {κ : Type} (H : Host κ) (sha256 : ByteArray → List UInt8)

/-- Let in a device of the list, under the store lock. -/
def recognize (peer : NoisePublicKey) (now : DateTime) : Act (World κ) String (Option HandshakeAck) := do
  let w ← .get
  match w.store.getDeviceByPubkey peer with
  | some d => do
    onStore fun s => ((), s.touchDevice d.id now)
    .ignore (callSave H)
    return some ⟨d.id, false⟩
  | none => return none

/-- Register a device, under the store lock. -/
def register (device : Device) : Act (World κ) String HandshakeAck := do
  onStore fun s => ((), s.addDevice device)
  callSave H
  return ⟨device.id, true⟩

/-- Consume the code of a hello. -/
def redeemCode (disk : Except String Unit) (hello : HandshakeHello) (now : DateTime) :
    Act Pairing.File String Unit :=
  match hello.pairingCode with
  | none => .fail codeMissing
  | some code => do
    let ok ← Pairing.consume sha256 disk code now
    .onlyIf (!ok) (.fail codeRefused)

/-- Decide on a handshake. The disk is that of the file of codes. -/
def authorize (disk : Except String Unit) (peer : NoisePublicKey) (hello : HandshakeHello) (now : DateTime)
    (id : DeviceId) : Act (Daemon κ) String HandshakeAck := do
  match ← onWorld (recognize H peer now) with
  | some ack => return ack
  | none => do
    onCodes (redeemCode sha256 disk hello now)
    onWorld (register H (newDevice peer hello now id))

end Authorize

/-! ## What a handshake leaves -/

section Outcome

variable {κ : Type} {H : Host κ} {sha256 : ByteArray → List UInt8} {disk : Except String Unit}
variable {peer : NoisePublicKey} {hello : HandshakeHello} {now : DateTime} {id : DeviceId}
variable {d d' : Daemon κ} {w : World κ} {device : Device} {r : Except String HandshakeAck}

/-- The disk takes the store with the new device. -/
def Registers (H : Host κ) (w : World κ) (device : Device) : Prop :=
  (H.save (w.store.addDevice device) w.host).1 = .ok ()

theorem wp_recognize : wp (recognize H peer now) (fun r w' =>
    match w.store.getDeviceByPubkey peer with
    | some d => r = .ok (some ⟨d.id, false⟩) ∧ w'.store = w.store.touchDevice d.id now
    | none => r = .ok none ∧ w' = w) w := by
  simp only [recognize, wp_bind, wp_get, andThen_ok]
  cases w.store.getDeviceByPubkey peer with
  | none => exact ⟨rfl, rfl⟩
  | some d => exact ⟨rfl, rfl⟩

theorem wp_register : wp (register H device) (fun r w' => w'.store = w.store.addDevice device ∧
    (r = .ok ⟨device.id, true⟩ ∧ Registers H w device ∨ (∃ e, r = .error e) ∧ ¬Registers H w device)) w := by
  simp only [register, wp_bind, onStore, wp_update, andThen_ok]
  unfold wp callSave Registers
  cases hsave : (H.save (w.store.addDevice device) w.host).1 with
  | ok => exact ⟨rfl, .inl ⟨rfl, rfl⟩⟩
  | error e => exact ⟨rfl, .inr ⟨⟨e, rfl⟩, fun h => by cases h⟩⟩

/-- What can become of a handshake. -/
inductive Authorized (H : Host κ) (sha256 : ByteArray → List UInt8) (disk : Except String Unit)
    (peer : NoisePublicKey) (hello : HandshakeHello) (now : DateTime) (id : DeviceId) (d : Daemon κ) :
    Except String HandshakeAck → State → Prop where
  | known {dev : Device} (hfind : d.world.store.getDeviceByPubkey peer = some dev) :
      Authorized H sha256 disk peer hello now id d (.ok ⟨dev.id, false⟩) (d.world.store.touchDevice dev.id now)
  | refused {e : String} (hfind : d.world.store.getDeviceByPubkey peer = none)
      (hcode : (redeemCode sha256 disk hello now d.codes).1 = .error e) :
      Authorized H sha256 disk peer hello now id d (.error e) d.world.store
  | paired (hfind : d.world.store.getDeviceByPubkey peer = none)
      (hcode : (redeemCode sha256 disk hello now d.codes).1 = .ok ())
      (hsave : Registers H d.world (newDevice peer hello now id)) :
      Authorized H sha256 disk peer hello now id d (.ok ⟨id, true⟩)
        (d.world.store.addDevice (newDevice peer hello now id))
  /-- The code is used up, the device is in the list, and the client is told that it is not. -/
  | stranded {e : String} (hfind : d.world.store.getDeviceByPubkey peer = none)
      (hcode : (redeemCode sha256 disk hello now d.codes).1 = .ok ())
      (hsave : ¬Registers H d.world (newDevice peer hello now id)) :
      Authorized H sha256 disk peer hello now id d (.error e)
        (d.world.store.addDevice (newDevice peer hello now id))

theorem authorize_outcome (d : Daemon κ) : wp (authorize H sha256 disk peer hello now id)
    (fun r d' => Authorized H sha256 disk peer hello now id d r d'.world.store) d := by
  unfold authorize
  rw [wp_bind]
  unfold onWorld
  rw [wp_zoom]
  apply wp_mono wp_recognize
  intro r w h
  split at h
  · next dev hfind =>
    obtain ⟨rfl, hstore⟩ := h
    rw [andThen_ok, wp_pure, hstore]
    exact .known hfind
  · next hfind =>
    obtain ⟨rfl, rfl⟩ := h
    rw [andThen_ok, wp_bind]
    unfold onCodes
    rw [wp_zoom]
    unfold wp
    -- The code is consumed before the device is saved, and nothing brings it back.
    cases hcode : (redeemCode sha256 disk hello now d.codes).1 with
    | error e => exact .refused hfind hcode
    | ok =>
      rw [andThen_ok, wp_zoom]
      apply wp_mono wp_register
      intro r w ⟨hstore, hr⟩
      rw [hstore]
      cases hr with
      | inl hr =>
        obtain ⟨rfl, hsave⟩ := hr
        exact .paired hfind hcode hsave
      | inr hr =>
        obtain ⟨⟨e, rfl⟩, hsave⟩ := hr
        exact .stranded hfind hcode hsave

/-- The code of an unknown key is accepted, and then the disk does not take the store
with the device. -/
def Strands (H : Host κ) (sha256 : ByteArray → List UInt8) (disk : Except String Unit) (peer : NoisePublicKey)
    (hello : HandshakeHello) (now : DateTime) (id : DeviceId) (d : Daemon κ) : Prop :=
  d.world.store.getDeviceByPubkey peer = none ∧ (redeemCode sha256 disk hello now d.codes).1 = .ok () ∧
    ¬Registers H d.world (newDevice peer hello now id)

theorem Authorized.refusal_keeps_iff {s : State} (h : Authorized H sha256 disk peer hello now id d r s) :
    (∀ e, r = .error e → s.devices = d.world.store.devices) ↔ ¬Strands H sha256 disk peer hello now id d := by
  unfold Strands
  cases h with
  | known hfind => simp [hfind]
  | refused hfind hcode => simp [hcode]
  | paired hfind hcode hsave => simp [hsave]
  | stranded hfind hcode hsave =>
    refine iff_of_false (fun hkeeps => ?_) (fun h => h ⟨hfind, hcode, hsave⟩)
    -- The list has a device with the key now, which it had not.
    have hmem : newDevice peer hello now id ∈ d.world.store.devices := by
      rw [← hkeeps _ rfl]
      exact State.mem_addDevice.mpr (.inr rfl)
    exact State.getDeviceByPubkey_eq_none.mp hfind _ hmem rfl

/-- A refused handshake leaves the device list as it was, exactly unless it strands a device. -/
theorem refusal_keeps_devices_iff (d : Daemon κ) : wp (authorize H sha256 disk peer hello now id)
    (fun r d' => ∀ e, r = .error e → d'.world.store.devices = d.world.store.devices) d ↔
      ¬Strands H sha256 disk peer hello now id d :=
  (authorize_outcome d).refusal_keeps_iff

end Outcome

end Ipgate
