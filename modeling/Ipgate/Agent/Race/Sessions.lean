-- SUMMARY: Handshakes, revocations and requests on open connections in any order: who is let in, and until when.
import Ipgate.Lib.Lts
import Ipgate.Lib.Pool
import Ipgate.Agent.Api.Authorize
import Ipgate.Agent.Api.Frames
import Ipgate.Agent.Race.Pairing

/-!
# Connections

A connection knows its key and nothing else of its device. Its handshake runs in
parts, with the store locked in each part only, and before a request is dispatched
the key is looked up again. A device is revoked by its id, by a request on any
connection.
-/

namespace Ipgate.Sessions

open Act Pairing

/-! ## Connections -/

/-- Work that leaves the device list alone. -/
structure Quiet (κ : Type) where
  run : World κ → World κ
  devices : ∀ w, (run w).store.devices = w.store.devices

/-- The requests on the allowlist and the settings, and the reconcile loop. -/
def Quiet.ofEvent {κ : Type} (H : Host κ) (cfg : AgentConfig) (e : Ipgate.Event) : Quiet κ where
  run w := afterEvent H cfg w e
  devices w := untouched_devices.afterEvent H cfg w e

/-- The passes over the port forwards. -/
def Quiet.ofPass {κ : Type} (H : Host κ) (N : NatBackend κ) (env : ForwardRule → HostEnv) : Quiet κ where
  run w := (applyNow H N env w).2
  devices w := frames_applyNow (fun _ _ => rfl) w

inductive Rpc (κ : Type) where
  | revokeDevice (id : DeviceId)
  /-- Any other request; it is told which device asks. -/
  | other (work : DeviceId → Quiet κ)

inductive Phase where
  | called
  /-- The key is unknown. -/
  | asked
  /-- The code has been consumed. -/
  | accepted
  | serving
  | received
  /-- The key has been looked up again, and is that of the device. -/
  | cleared (id : DeviceId)
  | closed
  deriving DecidableEq

structure Conn where
  key : NoisePublicKey
  hello : HandshakeHello
  now : DateTime
  phase : Phase
  deriving DecidableEq

structure Sys (κ : Type) where
  daemon : Daemon κ
  conns : List Conn

inductive Event (κ : Type) where
  | connect (key : NoisePublicKey) (hello : HandshakeHello) (now : DateTime)
  | recognize (i : ℕ)
  | consume (i : ℕ) (disk : Except String Unit)
  | register (i : ℕ) (id : DeviceId)
  | receive (i : ℕ)
  | recheck (i : ℕ)
  | dispatch (i : ℕ) (rpc : Rpc κ)
  | close (i : ℕ)
  /-- The other threads of the agent work on the store. -/
  | background (work : Quiet κ)
  /-- Other calls and processes work on the file of codes. -/
  | codes (file : Pairing.File)

/-- The connection that moves. -/
def Event.conn {κ : Type} : Event κ → Option ℕ
  | .recognize i | .consume i _ | .register i _ | .receive i | .recheck i | .dispatch i _ | .close i => some i
  | .connect .. | .background _ | .codes _ => none

namespace Sys

variable {κ : Type}

def world (s : Sys κ) : World κ := s.daemon.world

def devices (s : Sys κ) : List Device := s.world.store.devices

def setPhase (s : Sys κ) (i : ℕ) (p : Phase) : Sys κ :=
  { s with conns := s.conns.modify i fun c => { c with phase := p } }

def setWorld (s : Sys κ) (w : World κ) : Sys κ := { s with daemon := { s.daemon with world := w } }

def setCodes (s : Sys κ) (f : Pairing.File) : Sys κ := { s with daemon := { s.daemon with codes := f } }

end Sys

/-- A failed handshake closes the connection. -/
def Phase.after {α : Type} (p : Phase) : Except String α → Phase
  | .ok _ => p
  | .error _ => .closed

def Phase.afterRecognize : Except String (Option HandshakeAck) → Phase
  | .ok (some _) => .serving
  | .ok none => .asked
  | .error _ => .closed

def Conn.device (c : Conn) (id : DeviceId) : Device := newDevice c.key c.hello c.now id

section Steps

variable {κ : Type} (H : Host κ) (sha256 : ByteArray → List UInt8)

/-- What a dispatched request does. -/
def Rpc.run (device : DeviceId) (w : World κ) : Rpc κ → World κ
  | .revokeDevice id => (Ipgate.revokeDevice H id w).2
  | .other work => (work device).run w

namespace Sys

variable (s : Sys κ)

def recognize (i : ℕ) (c : Conn) : Sys κ :=
  let r := Ipgate.recognize H c.key c.now s.world
  (s.setWorld r.2).setPhase i (.afterRecognize r.1)

def consume (disk : Except String Unit) (i : ℕ) (c : Conn) : Sys κ :=
  let r := redeemCode sha256 disk c.hello c.now s.daemon.codes
  (s.setCodes r.2).setPhase i (Phase.accepted.after r.1)

/-- Nothing shared is touched after this part, so the call of `authorize` ends with it. -/
def register (id : DeviceId) (i : ℕ) (c : Conn) : Sys κ :=
  let r := Ipgate.register H (c.device id) s.world
  (s.setWorld r.2).setPhase i (Phase.serving.after r.1)

def recheck (i : ℕ) (c : Conn) : Sys κ :=
  match s.world.store.getDeviceByPubkey c.key with
  | some d => s.setPhase i (.cleared d.id)
  | none => s.setPhase i .closed

/-- The connection, if it is in the phase. -/
def inPhase (p : Phase) (i : ℕ) : Option Conn := s.conns[i]?.filter fun c => c.phase = p

def step : Event κ → Option (Sys κ)
  | .connect key hello now => some { s with conns := s.conns ++ [⟨key, hello, now, .called⟩] }
  | .recognize i => (s.inPhase .called i).map (s.recognize H i)
  | .consume i disk => (s.inPhase .asked i).map (s.consume sha256 disk i)
  | .register i id => (s.inPhase .accepted i).map (s.register H id i)
  | .receive i => (s.inPhase .serving i).map fun _ => s.setPhase i .received
  | .recheck i => (s.inPhase .received i).map (s.recheck i)
  | .dispatch i rpc =>
    match s.conns[i]? with
    | some ⟨_, _, _, .cleared device⟩ => some ((s.setWorld (rpc.run H device s.world)).setPhase i .serving)
    | _ => none
  | .close i => (s.inPhase .serving i).map fun _ => s.setPhase i .closed
  | .background work => some (s.setWorld (work.run s.world))
  | .codes file => some (s.setCodes file)

/-! ## What is observed of a step -/

/-- The step ends a call of `authorize` for the key, with `Ok` and `paired = true`. -/
def Pairs (key : NoisePublicKey) : Event κ → Prop
  | .register i id => ∃ c ∈ s.inPhase .accepted i, c.key = key ∧
      (Ipgate.register H (c.device id) s.world).1 = .ok ⟨id, true⟩
  | _ => False

instance (key : NoisePublicKey) : (e : Event κ) → Decidable (s.Pairs H key e)
  | .register i id => inferInstanceAs (Decidable (∃ c ∈ s.inPhase .accepted i, c.key = key ∧
      (Ipgate.register H (c.device id) s.world).1 = .ok ⟨id, true⟩))
  | .connect .. | .recognize _ | .consume .. | .receive _ | .recheck _ | .dispatch .. | .close _ | .background _
  | .codes _ => .isFalse not_false

/-- The step is a request to revoke the device with the key, and removes it. -/
def Revokes (key : NoisePublicKey) : Event κ → Prop
  | .dispatch _ (.revokeDevice id) => ∃ d ∈ s.devices, d.id = id ∧ d.pubkey = key
  | _ => False

/-- A device that is registered is saved. -/
def Takes : Event κ → Prop
  | .register i id => ∀ c ∈ s.inPhase .accepted i, Registers H s.world (c.device id)
  | _ => True

instance : (e : Event κ) → Decidable (s.Takes H e)
  | .register i id => inferInstanceAs (Decidable (∀ c ∈ s.inPhase .accepted i,
      (H.save (s.world.store.addDevice (c.device id)) s.world.host).1 = .ok ()))
  | .connect .. | .recognize _ | .consume .. | .receive _ | .recheck _ | .dispatch .. | .close _ | .background _
  | .codes _ => .isTrue trivial

end Sys

end Steps

/-! ## What a step does -/

section Spec

variable {κ : Type} {H : Host κ} {sha256 : ByteArray → List UInt8} {s s' : Sys κ} {e : Event κ} {i j : ℕ}
variable {c c' : Conn} {p : Phase} {key : NoisePublicKey} {id : DeviceId} {ds : List Device}

theorem inPhase_eq_some : s.inPhase p i = some c ↔ s.conns[i]? = some c ∧ c.phase = p := by
  simp [Sys.inPhase, Option.filter_eq_some_iff]

theorem revokeDevice_devices (w : World κ) :
    (revokeDevice H id w).2.store.devices = (w.store.removeDevice id).2.devices := by
  have h : wp (revokeDevice H id) (fun _ w' => w'.store.devices = (w.store.removeDevice id).2.devices) w := by
    simp only [revokeDevice, wp_bind, onStore, wp_update, andThen_ok, rejectIf, wp_onlyIf, wp_fail, andThen_error]
    exact ⟨fun _ => trivial, fun _ => rfl⟩
  exact h

/-- What a step can do to the device list. -/
inductive DeviceChange (s : Sys κ) : Event κ → List Device → Prop where
  | kept {e : Event κ} (hnot : ∀ i id, e ≠ .dispatch i (.revokeDevice id)) : DeviceChange s e s.devices
  | touched {i : ℕ} {id : DeviceId} {now : DateTime} : DeviceChange s (.recognize i) (State.touch id now s.devices)
  | added {i : ℕ} {id : DeviceId} {c : Conn} (hc : s.inPhase .accepted i = some c) :
      DeviceChange s (.register i id) (s.world.store.addDevice (c.device id)).devices
  | removed {i : ℕ} {id : DeviceId} :
      DeviceChange s (.dispatch i (.revokeDevice id)) (s.world.store.removeDevice id).2.devices

theorem recognize_devices (h : (s.recognize H i c).devices = ds) :
    DeviceChange s (.recognize i) ds := by
  have hrecognize : wp (Ipgate.recognize H c.key c.now) _ s.world := wp_recognize
  unfold wp at hrecognize
  subst h
  show DeviceChange s (.recognize i) (Ipgate.recognize H c.key c.now s.world).2.store.devices
  split at hrecognize
  · rw [hrecognize.2]
    exact .touched
  · rw [hrecognize.2]
    exact .kept nofun

theorem step_devices (h : s.step H sha256 e = some s') : DeviceChange s e s'.devices := by
  cases e with
  | connect key hello now =>
    cases h
    exact .kept nofun
  | recognize i =>
    obtain ⟨c, -, rfl⟩ := Option.map_eq_some_iff.mp h
    exact recognize_devices rfl
  | consume i disk =>
    obtain ⟨c, -, rfl⟩ := Option.map_eq_some_iff.mp h
    exact .kept nofun
  | register i id =>
    obtain ⟨c, hc, rfl⟩ := Option.map_eq_some_iff.mp h
    have hstore : (Ipgate.register H (c.device id) s.world).2.store = _ := wp_register.1
    show DeviceChange s _ (Ipgate.register H (c.device id) s.world).2.store.devices
    rw [hstore]
    exact .added hc
  | receive i =>
    obtain ⟨c, -, rfl⟩ := Option.map_eq_some_iff.mp h
    exact .kept nofun
  | recheck i =>
    obtain ⟨c, -, rfl⟩ := Option.map_eq_some_iff.mp h
    have hdevices : (s.recheck i c).devices = s.devices := by
      unfold Sys.recheck
      split <;> rfl
    rw [hdevices]
    exact .kept nofun
  | dispatch i rpc =>
    simp only [Sys.step] at h
    split at h
    · cases h
      cases rpc with
      | revokeDevice id =>
        show DeviceChange s _ (revokeDevice H id s.world).2.store.devices
        rw [revokeDevice_devices]
        exact .removed
      | other work =>
        show DeviceChange s _ ((work _).run s.world).store.devices
        rw [Quiet.devices]
        exact .kept (by simp)
    · cases h
  | close i =>
    obtain ⟨c, -, rfl⟩ := Option.map_eq_some_iff.mp h
    exact .kept nofun
  | background work =>
    cases h
    show DeviceChange s _ (work.run s.world).store.devices
    rw [Quiet.devices]
    exact .kept nofun
  | codes file =>
    cases h
    exact .kept nofun

/-- The phases a request goes through; the others do not matter here. -/
inductive Enters (s : Sys κ) (j : ℕ) (c : Conn) : Event κ → Phase → Prop where
  | received : Enters s j c (.receive j) .received
  | cleared {d : Device} (hfind : s.world.store.getDeviceByPubkey c.key = some d) :
      Enters s j c (.recheck j) (.cleared d.id)
  | other {e : Event κ} {p : Phase} (hcleared : ∀ id, p ≠ .cleared id) : Enters s j c e p

/-- What a step can do to the connections. -/
inductive ConnChange (s : Sys κ) : Event κ → List Conn → Prop where
  | kept {e : Event κ} (he : e.conn = none) : ConnChange s e s.conns
  | opened {e : Event κ} {c : Conn} (he : e.conn = none) (hphase : c.phase = .called) :
      ConnChange s e (s.conns ++ [c])
  | moved {e : Event κ} {i : ℕ} {c : Conn} {p : Phase} (hc : s.conns[i]? = some c) (he : e.conn = some i)
      (hp : Enters s i c e p) : ConnChange s e (s.conns.modify i fun c => { c with phase := p })

theorem after_not_cleared {α : Type} {r : Except String α} (hp : ∀ id, p ≠ .cleared id) (id : DeviceId) :
    p.after r ≠ .cleared id := by
  cases r with
  | ok => exact hp id
  | error => nofun

theorem afterRecognize_not_cleared {r : Except String (Option HandshakeAck)} (id : DeviceId) :
    Phase.afterRecognize r ≠ .cleared id := by
  unfold Phase.afterRecognize
  split <;> nofun

theorem step_conns (h : s.step H sha256 e = some s') : ConnChange s e s'.conns := by
  cases e with
  | connect key hello now =>
    cases h
    exact .opened rfl rfl
  | recognize i =>
    obtain ⟨c, hc, rfl⟩ := Option.map_eq_some_iff.mp h
    exact .moved (inPhase_eq_some.mp hc).1 rfl (.other afterRecognize_not_cleared)
  | consume i disk =>
    obtain ⟨c, hc, rfl⟩ := Option.map_eq_some_iff.mp h
    exact .moved (inPhase_eq_some.mp hc).1 rfl (.other (after_not_cleared nofun))
  | register i id =>
    obtain ⟨c, hc, rfl⟩ := Option.map_eq_some_iff.mp h
    exact .moved (inPhase_eq_some.mp hc).1 rfl (.other (after_not_cleared nofun))
  | receive i =>
    obtain ⟨c, hc, rfl⟩ := Option.map_eq_some_iff.mp h
    exact .moved (inPhase_eq_some.mp hc).1 rfl .received
  | recheck i =>
    obtain ⟨c, hc, rfl⟩ := Option.map_eq_some_iff.mp h
    unfold Sys.recheck
    split
    · next d hfind => exact .moved (inPhase_eq_some.mp hc).1 rfl (.cleared hfind)
    · exact .moved (p := .closed) (inPhase_eq_some.mp hc).1 rfl (.other nofun)
  | dispatch i rpc =>
    simp only [Sys.step] at h
    split at h
    · next hc =>
      cases h
      exact .moved (p := .serving) hc rfl (.other nofun)
    · cases h
  | close i =>
    obtain ⟨c, hc, rfl⟩ := Option.map_eq_some_iff.mp h
    exact .moved (p := .closed) (inPhase_eq_some.mp hc).1 rfl (.other nofun)
  | background work =>
    cases h
    exact .kept rfl
  | codes file =>
    cases h
    exact .kept rfl

/-- A connection keeps its key, and moves only in its own steps. -/
theorem conn_step (h : s.step H sha256 e = some s') (hj : s.conns[j]? = some c) :
    ∃ c', s'.conns[j]? = some c' ∧ c'.key = c.key ∧ (c' = c ∨ e.conn = some j ∧ Enters s j c e c'.phase) := by
  have hchange := step_conns h
  generalize s'.conns = conns at *
  cases hchange with
  | kept => exact ⟨c, hj, rfl, .inl rfl⟩
  | opened hphase =>
    obtain ⟨hlt, -⟩ := List.getElem?_eq_some_iff.mp hj
    exact ⟨c, by rw [List.getElem?_append_left hlt, hj], rfl, .inl rfl⟩
  | @moved i d p hd he hp =>
    by_cases hij : i = j
    · subst hij
      obtain rfl : d = c := Option.some.inj (hd.symm.trans hj)
      exact ⟨_, Pool.getElem?_modified hj, rfl, .inr ⟨he, hp⟩⟩
    · exact ⟨c, (Pool.getElem?_unmodified hij).trans hj, rfl, .inl rfl⟩

/-- A connection is cleared when it is rechecked, and stays so until it moves again. -/
theorem cleared_step (h : s.step H sha256 e = some s') (hj : s'.conns[j]? = some c')
    (hcleared : c'.phase = .cleared id) : s.conns[j]? = some c' ∧ e.conn ≠ some j ∨
      e = .recheck j ∧ ∃ d ∈ s.devices, d.pubkey = c'.key ∧ d.id = id := by
  have hchange := step_conns h
  generalize s'.conns = conns at *
  cases hchange with
  | kept he => exact .inl ⟨hj, by simp [he]⟩
  | opened he hphase =>
    cases Pool.getElem?_start hj with
    | inl hold => exact .inl ⟨hold, by simp [he]⟩
    | inr hnew =>
      obtain ⟨-, rfl⟩ := hnew
      cases hphase.symm.trans hcleared
  | @moved i d p hd he hp =>
    by_cases hij : i = j
    · subst hij
      obtain rfl : _ = c' := Option.some.inj ((Pool.getElem?_modified hd).symm.trans hj)
      cases hp with
      | received => cases hcleared
      | cleared hfind =>
        cases hcleared
        obtain ⟨hmem, hkey⟩ := State.getDeviceByPubkey_eq_some hfind
        exact .inr ⟨rfl, _, hmem, hkey, rfl⟩
      | other hnot => exact (hnot id hcleared).elim
    · exact .inl ⟨(Pool.getElem?_unmodified hij).symm.trans hj, by simpa [he] using hij⟩

/-! ## Steps that keep what revocation relies on -/

/-- No two devices share an id or a key, whatever happens. -/
theorem apart_step (hapart : State.DevicesApart s.devices) (h : s.step H sha256 e = some s') :
    State.DevicesApart s'.devices := by
  have hchange := step_devices h
  generalize s'.devices = ds at *
  cases hchange with
  | kept => exact hapart
  | touched => exact hapart.touch
  | added => exact State.DevicesApart.add hapart
  | removed => exact State.DevicesApart.remove hapart

/-- No device of the list has the key. -/
def Sys.Lacks (s : Sys κ) (key : NoisePublicKey) : Prop := ∀ d ∈ s.devices, d.pubkey ≠ key

/-- A key that a registration puts into the list has been paired. -/
theorem pairs_of_added (htakes : s.Takes H (.register i id)) (hc : s.inPhase .accepted i = some c) :
    s.Pairs H c.key (.register i id) := by
  refine ⟨c, hc, rfl, ?_⟩
  have hregister : wp (Ipgate.register H (c.device id)) _ s.world := wp_register
  cases hregister.2 with
  | inl hok => exact hok.1
  | inr herr => exact (herr.2 (htakes c hc)).elim

theorem mem_touch {d : Device} {now : DateTime} (h : d ∈ State.touch id now ds) :
    ∃ d' ∈ ds, d'.id = d.id ∧ d'.pubkey = d.pubkey := by
  induction ds with
  | nil => cases h
  | cons e es ih =>
    unfold State.touch at h
    split at h
    · cases List.mem_cons.mp h with
      | inl heq =>
        subst heq
        exact ⟨e, List.mem_cons_self .., rfl, rfl⟩
      | inr hmem => exact ⟨d, List.mem_cons_of_mem e hmem, rfl, rfl⟩
    · cases List.mem_cons.mp h with
      | inl heq =>
        subst heq
        exact ⟨d, List.mem_cons_self .., rfl, rfl⟩
      | inr hmem =>
        obtain ⟨d', hd', hsame⟩ := ih hmem
        exact ⟨d', List.mem_cons_of_mem e hd', hsame⟩

/-- A key is new to the list only where a call pairs it. -/
theorem key_step (htakes : s.Takes H e) (h : s.step H sha256 e = some s') (hkey : ∃ d ∈ s'.devices, d.pubkey = key) :
    (∃ d ∈ s.devices, d.pubkey = key) ∨ s.Pairs H key e := by
  have hchange := step_devices h
  generalize s'.devices = ds at *
  cases hchange with
  | kept => exact .inl hkey
  | touched =>
    obtain ⟨d, hd, rfl⟩ := hkey
    obtain ⟨d', hd', -, hpub⟩ := mem_touch hd
    exact .inl ⟨d', hd', hpub⟩
  | added hc =>
    obtain ⟨d, hd, rfl⟩ := hkey
    cases State.mem_addDevice.mp hd with
    | inl hold => exact .inl ⟨d, hold.1, rfl⟩
    | inr hnew =>
      subst hnew
      exact .inr (pairs_of_added htakes hc)
  | removed =>
    obtain ⟨d, hd, rfl⟩ := hkey
    exact .inl ⟨d, (State.mem_removeDevice.mp hd).1, rfl⟩

/-- Without a call that pairs the key it stays out of the list. -/
theorem lacks_step (hlacks : s.Lacks key) (htakes : s.Takes H e) (hpairs : ¬s.Pairs H key e)
    (h : s.step H sha256 e = some s') : s'.Lacks key := by
  intro d hd heq
  cases key_step htakes h ⟨d, hd, heq⟩ with
  | inl hold =>
    obtain ⟨d', hd', hkey⟩ := hold
    exact hlacks d' hd' hkey
  | inr hpair => exact hpairs hpair

/-- The connection has the key, which the list lacks, and is not cleared for a request. -/
structure Sys.Cut (s : Sys κ) (key : NoisePublicKey) (i : ℕ) : Prop where
  lacks : s.Lacks key
  conn : ∃ c, s.conns[i]? = some c ∧ c.key = key ∧ ∀ id, c.phase ≠ .cleared id

/-- The request that such a connection has received will find no device. -/
theorem cut_step (hcut : s.Cut key i) (htakes : s.Takes H e) (hpairs : ¬s.Pairs H key e)
    (h : s.step H sha256 e = some s') : s'.Cut key i where
  lacks := lacks_step hcut.lacks htakes hpairs h
  conn := by
    obtain ⟨c, hc, hkey, hphase⟩ := hcut.conn
    obtain ⟨c', hc', hkey', hmoved⟩ := conn_step h hc
    refine ⟨c', hc', hkey'.trans hkey, fun id hcleared => ?_⟩
    cases hmoved with
    | inl hsame => exact hphase id (hsame ▸ hcleared)
    | inr henters =>
      rw [hcleared] at henters
      generalize hp : Phase.cleared id = p at henters
      cases henters.2 with
      | received => cases hp
      | cleared hfind =>
        obtain ⟨hmem, heq⟩ := State.getDeviceByPubkey_eq_some hfind
        exact hcut.lacks _ hmem (heq.trans hkey)
      | other hnot => exact hnot id hp.symm

/-- All devices of the list with the key have one id. -/
def OneId (key : NoisePublicKey) (ds : List Device) : Prop :=
  ∀ d ∈ ds, ∀ d' ∈ ds, d.pubkey = key → d'.pubkey = key → d.id = d'.id

theorem oneId_of_apart (h : State.DevicesApart ds) : OneId key ds := by
  intro d hd d' hd' hkey hkey'
  rw [h.eq_of_key hd hd' (hkey.trans hkey'.symm)]

theorem oneId_step (hone : OneId key s.devices) (h : s.step H sha256 e = some s') : OneId key s'.devices := by
  have hchange := step_devices h
  generalize s'.devices = ds at *
  intro d hd d' hd' hkey hkey'
  cases hchange with
  | kept => exact hone d hd d' hd' hkey hkey'
  | touched =>
    obtain ⟨o, ho, hid, hpub⟩ := mem_touch hd
    obtain ⟨o', ho', hid', hpub'⟩ := mem_touch hd'
    rw [← hid, ← hid']
    exact hone o ho o' ho' (hpub.trans hkey) (hpub'.trans hkey')
  | added =>
    -- A new device with the key replaces all others with it.
    have hmem := State.mem_addDevice.mp hd
    have hmem' := State.mem_addDevice.mp hd'
    grind [Sys.devices, OneId]
  | removed =>
    exact hone d (State.mem_removeDevice.mp hd).1 d' (State.mem_removeDevice.mp hd').1 hkey hkey'

/-- Removing the device takes its key out of the list. -/
theorem lacks_of_revokes (hone : OneId key s.devices) (hrevokes : s.Revokes key e)
    (h : s.step H sha256 e = some s') : s'.Lacks key := by
  have hchange := step_devices h
  generalize hds : s'.devices = ds at *
  unfold Sys.Lacks
  rw [hds]
  cases hchange with
  | kept hnot =>
    unfold Sys.Revokes at hrevokes
    split at hrevokes
    · exact (hnot _ _ rfl).elim
    · exact hrevokes.elim
  | touched => exact hrevokes.elim
  | added => exact hrevokes.elim
  | removed =>
    obtain ⟨d, hd, hid, hkey⟩ := hrevokes
    intro d' hd' hkey'
    obtain ⟨hmem, hne⟩ := State.mem_removeDevice.mp hd'
    exact hne ((hone d' hmem d hd hkey' hkey).trans hid)

theorem not_dispatched_of_cut {rpc : Rpc κ} (hcut : s.Cut key i) : s.step H sha256 (.dispatch i rpc) = none := by
  obtain ⟨c, hc, -, hphase⟩ := hcut.conn
  simp only [Sys.step, hc]
  split
  · next heq =>
    cases heq
    exact (hphase _ rfl).elim
  · rfl

theorem cut_of_received (hlacks : s.Lacks key) (hc : s.conns[i]? = some c) (hkey : c.key = key)
    (h : s.step H sha256 (.receive i) = some s') : s'.Cut key i := by
  obtain ⟨d, hd, rfl⟩ := Option.map_eq_some_iff.mp h
  exact ⟨hlacks, _, Pool.getElem?_modified hc, hkey, nofun⟩

end Spec

/-! ## Runs -/

section Runs

variable {κ : Type} (H : Host κ) (sha256 : ByteArray → List UInt8)

/-- Before its first connection. -/
def Sys.start (d : Daemon κ) : Sys κ := ⟨d, []⟩

/-- The key was loaded with the store; and if it named one device there, no request has
removed that. -/
def Loaded (key : NoisePublicKey) (s : Sys κ) (es : List (Event κ)) : Prop :=
  ¬s.Lacks key ∧ (OneId key s.devices → Lts.StepsMeet (Sys.step H sha256) (fun t e => ¬t.Revokes key e) s es)

/-- A call has paired the key, and no request has removed its device since. -/
def PairedSince (key : NoisePublicKey) (s : Sys κ) (es : List (Event κ)) : Prop :=
  ∃ xs e ys t t', es = xs ++ e :: ys ∧ Lts.run (Sys.step H sha256) s xs = some t ∧ t.Pairs H key e ∧
    t.step H sha256 e = some t' ∧ Lts.StepsMeet (Sys.step H sha256) (fun u e => ¬u.Revokes key e) t' ys

/-- Whoever is in the list is there by right. -/
def Earned (s : Sys κ) (es : List (Event κ)) : Prop :=
  ∀ xs ys t key, es = xs ++ ys → Lts.run (Sys.step H sha256) s xs = some t → ¬t.Lacks key →
    Loaded H sha256 key s xs ∨ PairedSince H sha256 key s xs

/-- A request is dispatched only when its connection has been rechecked, when the list
had the device with its key. -/
def Rechecked (s : Sys κ) (es : List (Event κ)) : Prop :=
  ∀ xs i rpc ys t t', es = xs ++ .dispatch i rpc :: ys → Lts.run (Sys.step H sha256) s xs = some t →
    t.step H sha256 (.dispatch i rpc) = some t' → ∃ c id, t.conns[i]? = some c ∧ c.phase = .cleared id ∧
      ∃ as bs u, xs = as ++ .recheck i :: bs ∧ (∀ e ∈ bs, e.conn ≠ some i) ∧
        Lts.run (Sys.step H sha256) s as = some u ∧ ∃ d ∈ u.devices, d.pubkey = c.key ∧ d.id = id

/-- After a device has been revoked, no request received on a connection with its key is
dispatched, unless a call has paired the key again. -/
def CutOff (s : Sys κ) (es : List (Event κ)) : Prop :=
  ∀ xs r ys i c zs rpc ts key t u v v', es = xs ++ r :: (ys ++ .receive i :: (zs ++ .dispatch i rpc :: ts)) →
    Lts.run (Sys.step H sha256) s xs = some t → t.Revokes key r →
    Lts.run (Sys.step H sha256) t (r :: ys) = some u → u.conns[i]? = some c → c.key = key →
    Lts.run (Sys.step H sha256) u (.receive i :: zs) = some v → v.step H sha256 (.dispatch i rpc) = some v' →
    ¬Lts.StepsMeet (Sys.step H sha256) (fun w e => ¬w.Pairs H key e) t (r :: (ys ++ .receive i :: zs))

end Runs

section RunSpec

variable {κ : Type} {H : Host κ} {sha256 : ByteArray → List UInt8} {s t t' : Sys κ} {e : Event κ}
variable {es xs : List (Event κ)} {key : NoisePublicKey} {d : Daemon κ}

theorem PairedSince.snoc (h : PairedSince H sha256 key s xs) (hrun : Lts.run (Sys.step H sha256) s xs = some t)
    (hnot : ¬t.Revokes key e) : PairedSince H sha256 key s (xs ++ [e]) := by
  obtain ⟨as, p, bs, u, u', rfl, has, hpairs, hp, hmeet⟩ := h
  obtain ⟨v, hv, hbs⟩ := Lts.run_append_iff.mp hrun
  obtain rfl : u = v := Option.some.inj (has.symm.trans hv)
  obtain ⟨v', hv', hbs⟩ := Lts.run_cons_iff.mp hbs
  obtain rfl : u' = v' := Option.some.inj (hp.symm.trans hv')
  exact ⟨as, p, bs ++ [e], u, u', by simp, has, hpairs, hp, (Lts.stepsMeet_snoc hbs).mpr ⟨hmeet, hnot⟩⟩

theorem earned (hmeet : Lts.StepsMeet (Sys.step H sha256) (Sys.Takes H) s es) : Earned H sha256 s es := by
  intro xs ys t key hes hrun
  subst hes
  have hmeet' := ((Lts.stepsMeet_append hrun).mp hmeet).1
  by_cases hone : OneId key s.devices
  -- by induction on the run: the key has one id throughout, and what it stands on is not revoked yet
  · have hall : OneId key t.devices ∧ (¬t.Lacks key →
        Loaded H sha256 key s xs ∨ PairedSince H sha256 key s xs) := by
      revert hmeet'
      refine Lts.run_history (P := fun xs t => Lts.StepsMeet (Sys.step H sha256) (Sys.Takes H) s xs →
        OneId key t.devices ∧ (¬t.Lacks key → Loaded H sha256 key s xs ∨ PairedSince H sha256 key s xs)) ?_ ?_ hrun
      · exact fun _ => ⟨hone, fun hhas => .inl ⟨hhas, fun _ => trivial⟩⟩
      · intro xs t e t' hxs ih hstep hmeet
        obtain ⟨hmeet, htakes⟩ := (Lts.stepsMeet_snoc hxs).mp hmeet
        obtain ⟨hone, ih⟩ := ih hmeet
        refine ⟨oneId_step hone hstep, fun hhas => ?_⟩
        have hnot : ¬t.Revokes key e := fun hrevokes => hhas (lacks_of_revokes hone hrevokes hstep)
        have hsome : ∃ d ∈ t'.devices, d.pubkey = key := by simpa [Sys.Lacks] using hhas
        cases key_step htakes hstep hsome with
        | inl hold =>
          have hold : ¬t.Lacks key := by simpa [Sys.Lacks] using hold
          cases ih hold with
          | inl hloaded =>
            exact .inl ⟨hloaded.1, fun h => (Lts.stepsMeet_snoc hxs).mpr ⟨hloaded.2 h, hnot⟩⟩
          | inr hpaired => exact .inr (hpaired.snoc hxs hnot)
        | inr hpairs => exact .inr ⟨xs, e, [], t, t', rfl, hxs, hpairs, hstep, trivial⟩
    exact hall.2
  · -- Two ids for the key were loaded.
    refine fun _ => .inl ⟨fun hlacks => hone ?_, fun h => (hone h).elim⟩
    exact fun d hd d' hd' hkey => (hlacks d hd hkey).elim

/-- A connection that is cleared was rechecked, and has not moved since. -/
theorem cleared_history (d : Daemon κ) (hrun : Lts.run (Sys.step H sha256) (.start d) xs = some t) :
    ∀ (i : ℕ) (c : Conn) (id : DeviceId), t.conns[i]? = some c → c.phase = .cleared id →
      ∃ as bs u, xs = as ++ .recheck i :: bs ∧ (∀ e ∈ bs, e.conn ≠ some i) ∧
        Lts.run (Sys.step H sha256) (.start d) as = some u ∧ ∃ d ∈ u.devices, d.pubkey = c.key ∧ d.id = id := by
  refine Lts.run_history (P := fun (xs : List (Event κ)) (t : Sys κ) =>
    ∀ (i : ℕ) (c : Conn) (id : DeviceId), t.conns[i]? = some c → c.phase = .cleared id →
      ∃ as bs u, xs = as ++ .recheck i :: bs ∧ (∀ e ∈ bs, e.conn ≠ some i) ∧
        Lts.run (Sys.step H sha256) (.start d) as = some u ∧ ∃ d ∈ u.devices, d.pubkey = c.key ∧ d.id = id) ?_ ?_ hrun
  · intro i c id hc
    cases hc
  · intro xs t e t' hxs ih hstep i c id hc hcleared
    cases cleared_step hstep hc hcleared with
    | inl hold =>
      obtain ⟨as, bs, u, rfl, hbs, hu⟩ := ih i c id hold.1 hcleared
      refine ⟨as, bs ++ [e], u, by simp, fun e' he' => ?_, hu⟩
      cases List.mem_append.mp he' with
      | inl hmem => exact hbs e' hmem
      | inr hlast =>
        obtain rfl := List.mem_singleton.mp hlast
        exact hold.2
    | inr hnow =>
      obtain ⟨rfl, hdevice⟩ := hnow
      exact ⟨xs, [], t, rfl, nofun, hxs, hdevice⟩

theorem rechecked (d : Daemon κ) : Rechecked H sha256 (.start d) es := by
  intro xs i rpc ys t t' _ hrun hstep
  simp only [Sys.step] at hstep
  split at hstep
  · next hc => exact ⟨_, _, hc, rfl, cleared_history d hrun i _ _ hc rfl⟩
  · cases hstep

theorem cutOff (hapart : State.DevicesApart s.devices)
    (hmeet : Lts.StepsMeet (Sys.step H sha256) (Sys.Takes H) s es) : CutOff H sha256 s es := by
  intro xs r ys i c zs rpc ts key t u v v' hes hxs hrevokes hu hc hkey hv hdispatch hno
  subst hes
  -- All steps from the revocation on are saved, and none pairs the key.
  have htakes := ((Lts.stepsMeet_append hxs).mp hmeet).2
  have hrun : Lts.run (Sys.step H sha256) t (r :: ys ++ .receive i :: zs) = some v :=
    Lts.run_append_iff.mpr ⟨u, hu, hv⟩
  rw [show r :: (ys ++ .receive i :: (zs ++ .dispatch i rpc :: ts)) =
    (r :: ys ++ .receive i :: zs) ++ .dispatch i rpc :: ts by simp] at htakes
  have hboth := ((Lts.stepsMeet_append hrun).mp htakes).1.and hno
  obtain ⟨hfirst, hsecond⟩ := (Lts.stepsMeet_append hu).mp hboth
  obtain ⟨t', ht', hys⟩ := Lts.run_cons_iff.mp hu
  obtain ⟨u', hu', hzs⟩ := Lts.run_cons_iff.mp hv
  have hapart' : State.DevicesApart t.devices :=
    Lts.run_invariant (I := fun s => State.DevicesApart s.devices) (fun _ _ _ h hs => apart_step h hs) hapart hxs
  have hlacks : u.Lacks key :=
    Lts.run_invariant_of_stepsMeet (I := fun s => s.Lacks key)
      (fun _ _ _ h hcond hs => lacks_step h hcond.1 hcond.2 hs)
      (lacks_of_revokes (oneId_of_apart hapart') hrevokes ht') ((Lts.stepsMeet_cons ht').mp hfirst).2 hys
  have hcut : v.Cut key i :=
    Lts.run_invariant_of_stepsMeet (I := fun s => s.Cut key i)
      (fun _ _ _ h hcond hs => cut_step h hcond.1 hcond.2 hs)
      (cut_of_received hlacks hc hkey hu') ((Lts.stepsMeet_cons hu').mp hsecond).2 hzs
  rw [not_dispatched_of_cut hcut] at hdispatch
  cases hdispatch

/-- A refused handshake leaves the device list alone exactly unless it strands a device;
and where every device that is registered is saved, whoever is in the list was loaded
with it or has been paired since the key was last revoked. -/
theorem refused_pairs_nobody (H : Host κ) (sha256 : ByteArray → List UInt8) :
    (∀ disk peer hello now id d, wp (authorize H sha256 disk peer hello now id)
      (fun r d' => ∀ e, r = .error e → d'.world.store.devices = d.world.store.devices) d ↔
        ¬Strands H sha256 disk peer hello now id d) ∧
    ∀ d es, Lts.StepsMeet (Sys.step H sha256) (Sys.Takes H) (.start d) es → Earned H sha256 (.start d) es :=
  ⟨fun _ _ _ _ _ => refusal_keeps_devices_iff, fun _ _ => earned⟩

end RunSpec

/-! ## Handshakes that are not interrupted -/

section Uninterrupted

variable {κ : Type} {H : Host κ} {sha256 : ByteArray → List UInt8} {s : Sys κ} {disk : Except String Unit}
variable {peer : NoisePublicKey} {hello : HandshakeHello} {now : DateTime} {id : DeviceId} {d : Daemon κ}

/-- The parts of `authorize`, one after the other. -/
theorem authorize_run : authorize H sha256 disk peer hello now id d =
    match Ipgate.recognize H peer now d.world with
    | (.ok (some ack), w) => (.ok ack, { d with world := w })
    | (.error e, w) => (.error e, { d with world := w })
    | (.ok none, w) =>
      match redeemCode sha256 disk hello now d.codes with
      | (.error e, f) => (.error e, ⟨w, f⟩)
      | (.ok (), f) =>
        let r := Ipgate.register H (newDevice peer hello now id) w
        (r.1, ⟨r.2, f⟩) := by
  show Act.bind _ _ d = _
  unfold Act.bind onWorld onCodes zoom
  rcases Ipgate.recognize H peer now d.world with ⟨_ | (_ | ack), w⟩
  · rfl
  · show Act.bind _ _ _ = _
    unfold Act.bind
    simp only
    rcases redeemCode sha256 disk hello now d.codes with ⟨_ | _, f⟩
    · rfl
    · rfl
  · rfl

theorem inPhase_moved {w : World κ} {conns : List Conn} {i : ℕ} {c : Conn} {p : Phase} {f : Pairing.File}
    (hc : conns[i]? = some c) :
    (⟨⟨w, f⟩, conns.modify i fun c => { c with phase := p }⟩ : Sys κ).inPhase p i = some { c with phase := p } :=
  inPhase_eq_some.mpr ⟨Pool.getElem?_modified hc, rfl⟩

/-- A connection whose handshake is not interrupted is served, or closed, as `authorize` decides. -/
theorem authorize_uninterrupted (s : Sys κ) : ∃ es s' c,
    Lts.run (Sys.step H sha256) s (.connect peer hello now :: es) = some s' ∧
    s'.daemon = (authorize H sha256 disk peer hello now id s.daemon).2 ∧ s'.conns[s.conns.length]? = some c ∧
    c.key = peer ∧ c.phase = Phase.serving.after (authorize H sha256 disk peer hello now id s.daemon).1 := by
  let i := s.conns.length
  let c : Conn := ⟨peer, hello, now, .called⟩
  let s₁ : Sys κ := { s with conns := s.conns ++ [c] }
  have hconnect : s.step H sha256 (.connect peer hello now) = some s₁ := rfl
  have hc₁ : s₁.conns[i]? = some c := Pool.getElem?_started
  have hrecognize : s₁.step H sha256 (.recognize i) = some (s₁.recognize H i c) :=
    Option.map_eq_some_iff.mpr ⟨c, inPhase_eq_some.mpr ⟨hc₁, rfl⟩, rfl⟩
  rw [authorize_run]
  match hr : Ipgate.recognize H peer now s.daemon.world with
  | (.ok (some ack), w) =>
    have hinto : s₁.recognize H i c = (s₁.setWorld w).setPhase i .serving := by
      simp only [Sys.recognize, c, s₁, Sys.world, hr, Phase.afterRecognize]
    rw [hinto] at hrecognize
    exact ⟨[.recognize i], _, _, Lts.run_cons_iff.mpr ⟨s₁, hconnect, Lts.run_cons_iff.mpr ⟨_, hrecognize, rfl⟩⟩, rfl,
      Pool.getElem?_modified hc₁, rfl, rfl⟩
  | (.error e, w) =>
    have hinto : s₁.recognize H i c = (s₁.setWorld w).setPhase i .closed := by
      simp only [Sys.recognize, c, s₁, Sys.world, hr, Phase.afterRecognize]
    rw [hinto] at hrecognize
    exact ⟨[.recognize i], _, _, Lts.run_cons_iff.mpr ⟨s₁, hconnect, Lts.run_cons_iff.mpr ⟨_, hrecognize, rfl⟩⟩, rfl,
      Pool.getElem?_modified hc₁, rfl, rfl⟩
  -- a key not on the list: the code, then the registration
  | (.ok none, w) =>
    let s₂ : Sys κ := (s₁.setWorld w).setPhase i .asked
    let c₂ : Conn := { c with phase := .asked }
    have hinto : s₁.recognize H i c = s₂ := by
      simp only [Sys.recognize, c, s₁, s₂, Sys.world, hr, Phase.afterRecognize]
    rw [hinto] at hrecognize
    have hc₂ : s₂.conns[i]? = some c₂ := Pool.getElem?_modified hc₁
    have hconsume : s₂.step H sha256 (.consume i disk) = some (s₂.consume sha256 disk i c₂) :=
      Option.map_eq_some_iff.mpr ⟨c₂, inPhase_moved hc₁, rfl⟩
    simp only
    match hcode : redeemCode sha256 disk hello now s.daemon.codes with
    | (.error e, f) =>
      have hinto : s₂.consume sha256 disk i c₂ = (s₂.setCodes f).setPhase i .closed := by
        have hcode' : redeemCode sha256 disk c₂.hello c₂.now s₂.daemon.codes = (.error e, f) := hcode
        simp only [Sys.consume, hcode', Phase.after]
      rw [hinto] at hconsume
      exact ⟨[.recognize i, .consume i disk], _, _, Lts.run_cons_iff.mpr ⟨s₁, hconnect, Lts.run_cons_iff.mpr
        ⟨s₂, hrecognize, Lts.run_cons_iff.mpr ⟨_, hconsume, rfl⟩⟩⟩, rfl, Pool.getElem?_modified hc₂, rfl, rfl⟩
    | (.ok (), f) =>
      let s₃ : Sys κ := (s₂.setCodes f).setPhase i .accepted
      let c₃ : Conn := { c₂ with phase := .accepted }
      have hinto : s₂.consume sha256 disk i c₂ = s₃ := by
        have hcode' : redeemCode sha256 disk c₂.hello c₂.now s₂.daemon.codes = (.ok (), f) := hcode
        simp only [Sys.consume, hcode', Phase.after, s₃]
      rw [hinto] at hconsume
      have hregister : s₃.step H sha256 (.register i id) = some (s₃.register H id i c₃) :=
        Option.map_eq_some_iff.mpr ⟨c₃, inPhase_moved hc₂, rfl⟩
      exact ⟨[.recognize i, .consume i disk, .register i id], _, _, Lts.run_cons_iff.mpr ⟨s₁, hconnect,
        Lts.run_cons_iff.mpr ⟨s₂, hrecognize, Lts.run_cons_iff.mpr ⟨s₃, hconsume, Lts.run_cons_iff.mpr
        ⟨_, hregister, rfl⟩⟩⟩⟩, rfl, Pool.getElem?_modified (Pool.getElem?_modified hc₂), rfl, rfl⟩

end Uninterrupted

/-! ### A disk that is full -/

/-- A disk that takes the store or not as its script says. -/
def saveScript : Host (List Bool) where
  apply _ _ answers := (.ok (), answers)
  add _ answers := (.ok (), answers)
  remove _ answers := (.ok (), answers)
  list answers := (.ok [], answers)
  save _
    | false :: answers => (.error "No space left on device (os error 28)", answers)
    | true :: answers => (.ok (), answers)
    | [] => (.ok (), [])

/-- The code of the hello below is pending. -/
def pairingDaemon (devices : List Device) (answers : List Bool) : Daemon (List Bool) where
  world := ⟨{ State.default with devices := devices }, ⟨false, false⟩, answers,
    AgentConfig.default.rulesetWith State.default.rulesetFlags⟩
  codes := .pending ⟨[⟨codeHash sampleSha256 "0001020304050607", 600000000000⟩]⟩

def pairingHello : HandshakeHello := ⟨some "0001020304050607", some "phone"⟩

def phone (id : DeviceId) : Device := ⟨id, "phone", "cGhvbmU", 0, none⟩

/-- The code is consumed and the save fails: the handshake is refused, and the device is
in the list. -/
theorem refusal_leaves_device :
    (authorize saveScript sampleSha256 (.ok ()) "cGhvbmU" pairingHello 0 ⟨1⟩ (pairingDaemon [] [false])).1 =
        .error "No space left on device (os error 28)" ∧
      (authorize saveScript sampleSha256 (.ok ()) "cGhvbmU" pairingHello 0 ⟨1⟩
        (pairingDaemon [] [false])).2.world.store.devices = [{ phone ⟨1⟩ with lastSeen := some 0 }] ∧
      ¬wp (authorize saveScript sampleSha256 (.ok ()) "cGhvbmU" pairingHello 0 ⟨1⟩)
        (fun r d' => ∀ e, r = .error e → d'.world.store.devices = []) (pairingDaemon [] [false]) := by
  have herror : (authorize saveScript sampleSha256 (.ok ()) "cGhvbmU" pairingHello 0 ⟨1⟩
      (pairingDaemon [] [false])).1 = .error "No space left on device (os error 28)" := by decide +kernel
  have hdevices : (authorize saveScript sampleSha256 (.ok ()) "cGhvbmU" pairingHello 0 ⟨1⟩
      (pairingDaemon [] [false])).2.world.store.devices = [{ phone ⟨1⟩ with lastSeen := some 0 }] := by decide +kernel
  refine ⟨herror, hdevices, fun h => ?_⟩
  have hnone := h _ herror
  rw [hdevices] at hnone
  cases hnone

/-- The phone opens a connection and has its own device revoked there. -/
def revokeSample : List (Event (List Bool)) :=
  [.connect "cGhvbmU" ⟨none, none⟩ 0, .recognize 0, .receive 0, .recheck 0]

/-- It asks to be paired again on a second connection. -/
def pairSample : List (Event (List Bool)) :=
  [.connect "cGhvbmU" pairingHello 0, .recognize 1, .consume 1 (.ok ()), .register 1 ⟨2⟩]

def skip : Quiet (List Bool) := ⟨id, fun _ => rfl⟩

def requestSample : List (Event (List Bool)) := [.recheck 0, .dispatch 0 (.other fun _ => skip)]

/-- The phone is in the list for it has been loaded, or has been paired since. -/
theorem refused_pairs_nobody_saved : Earned saveScript sampleSha256 (.start (pairingDaemon [phone ⟨1⟩] []))
    (revokeSample ++ .dispatch 0 (.revokeDevice ⟨1⟩) :: pairSample) :=
  (refused_pairs_nobody saveScript sampleSha256).2 (pairingDaemon [phone ⟨1⟩] []) _ (by decide +kernel)

end Ipgate.Sessions
