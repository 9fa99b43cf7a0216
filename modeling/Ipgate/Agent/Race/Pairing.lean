-- SUMMARY: Calls that create and consume pairing codes step by step, in any order, and when a code is accepted once and only once.
import Ipgate.Lib.Lts
import Ipgate.Lib.Pool
import Ipgate.Agent.Auth.Pairing

/-!
# Pairing codes under concurrent calls

The daemon consumes codes in as many handshakes as there are connections, and the
command line creates them in processes of its own. Each call loads the file and
saves it later, and nothing keeps the calls apart.
-/

namespace Ipgate.Pairing

inductive Request where
  | create (random : Vector UInt8 8) (ttlSecs : UInt64)
  | consume (code : PairingCode)
  deriving DecidableEq

/-- The code that is created or consumed. -/
def Request.code : Request → PairingCode
  | .create random _ => newCode random
  | .consume code => code

/-- The code a request draws. -/
def Request.drawn : Request → Option PairingCode
  | .create random _ => some (newCode random)
  | .consume _ => none

inductive Phase where
  | called
  | loaded (p : Pending)
  | returned (ok : Bool)
  | failed
  deriving DecidableEq

/-- A call under way. It has taken the time before it loads the file. -/
structure Call where
  req : Request
  now : DateTime
  phase : Phase
  deriving DecidableEq

def Call.loaded (c : Call) : Option Pending :=
  match c.phase with
  | .loaded p => some p
  | _ => none

/-- The call has not loaded the file, and it is to consume a code. -/
def Call.waitsFor (c : Call) : Option PairingCode :=
  match c with
  | ⟨.consume code, _, .called⟩ => some code
  | _ => none

structure Sys where
  file : File
  clock : DateTime
  calls : List Call

inductive Event where
  | wait (now : DateTime)
  | call (r : Request)
  | load (i : ℕ)
  | save (i : ℕ) (ok : Bool)
  /-- The file cannot be read. -/
  | fail (i : ℕ)

namespace Sys

/-- Nothing has been created. -/
def start (clock : DateTime) : Sys := ⟨.missing, clock, []⟩

def setPhase (s : Sys) (i : ℕ) (p : Phase) : Sys :=
  { s with calls := s.calls.modify i fun c => { c with phase := p } }

/-- The codes in the file. -/
def pending (s : Sys) : Pending :=
  match s.file with
  | .pending p => p
  | _ => ⟨[]⟩

/-- A code is drawn at random, it has not been drawn before. -/
def Fresh (s : Sys) (r : Request) : Prop := ∀ code ∈ r.drawn, ∀ c ∈ s.calls, c.req.drawn ≠ some code

instance (s : Sys) (r : Request) : Decidable (s.Fresh r) :=
  inferInstanceAs (Decidable (∀ code ∈ r.drawn, _))

end Sys

section Steps

variable (sha256 : ByteArray → List UInt8)

/-- What a call makes of the codes it has loaded: its answer, and the codes it saves. -/
def Request.work (p : Pending) (now : DateTime) : Request → Bool × Option Pending
  | .create random ttlSecs => (true, some (p.issue sha256 (newCode random) ttlSecs now))
  | .consume code =>
    let (ok, rest) := p.redeem sha256 code now
    (ok, if ok || rest.codes.length ≠ p.codes.length then some rest else none)

namespace Sys

/-- A call that has nothing to save has its answer when it has loaded the file. -/
def loadInto (s : Sys) (i : ℕ) (c : Call) : Sys :=
  match (load s.file).1 with
  | .error _ => s.setPhase i .failed
  | .ok p =>
    match c.req.work sha256 p c.now with
    | (ok, none) => s.setPhase i (.returned ok)
    | (_, some _) => s.setPhase i (.loaded p)

def step (s : Sys) : Event → Option Sys
  | .wait now => if s.clock ≤ now then some { s with clock := now } else none
  | .call r => if s.Fresh r then some { s with calls := s.calls ++ [⟨r, s.clock, .called⟩] } else none
  | .load i =>
    match s.calls[i]? with
    | some ⟨r, now, .called⟩ => some (s.loadInto sha256 i ⟨r, now, .called⟩)
    | _ => none
  | .save i ok =>
    match s.calls[i]? with
    | some ⟨r, now, .loaded p⟩ =>
      match r.work sha256 p now with
      | (answer, some q) =>
        some (if ok then { s.setPhase i (.returned answer) with file := .pending q } else s.setPhase i .failed)
      | (_, none) => none
    | _ => none
  | .fail i =>
    match s.calls[i]? with
    | some ⟨_, _, .called⟩ => some (s.setPhase i .failed)
    | _ => none

/-! ## Codes that are accepted once -/

variable (s : Sys)

/-- The request to create the code has returned it. -/
def Created (code : PairingCode) (expiresAt : DateTime) : Prop :=
  ∃ random ttlSecs now, ⟨.create random ttlSecs, now, .returned true⟩ ∈ s.calls ∧
    newCode random = code ∧ expiry now ttlSecs = expiresAt

/-- A call that took the time `now` has consumed the code. -/
def Consumed (code : PairingCode) (now : DateTime) : Prop := ⟨.consume code, now, .returned true⟩ ∈ s.calls

/-- A call to consume the code can come to load the file with the time `now`. -/
def Due (code : PairingCode) (now : DateTime) : Prop := s.clock ≤ now ∨ ⟨.consume code, now, .called⟩ ∈ s.calls

/-- A code is consumed by one call at most, it has been created, and it has not expired;
and as long as nobody has consumed it, it is accepted until then. -/
structure Sound : Prop where
  once : ∀ (i j : ℕ) code now now', s.calls[i]? = some ⟨.consume code, now, .returned true⟩ →
    s.calls[j]? = some ⟨.consume code, now', .returned true⟩ → i = j
  inTime : ∀ code now, s.Consumed code now → ∃ expiresAt, s.Created code expiresAt ∧ now < expiresAt
  accepted : ∀ code expiresAt now, s.Created code expiresAt → (∀ now, ¬s.Consumed code now) → now < expiresAt →
    s.Due code now → Act.wp (consume sha256 (.ok ()) code now) (fun r _ => r = .ok true) s.file

/-- A call saves only while the codes in the file that have not expired are those it has
loaded, and it drops no expired code that a waiting call would still accept. -/
def Current : Event → Prop
  | .save i true => ∀ c ∈ s.calls[i]?, ∀ p ∈ c.loaded, s.pending.live c.now = p.live c.now ∧
      ∀ d ∈ s.calls, ∀ code ∈ d.waitsFor, ∀ e ∈ s.pending.live d.now, e.hash = codeHash sha256 code →
        c.now < e.expiresAt
  | _ => True

instance : (e : Event) → Decidable (s.Current sha256 e)
  | .save i true => inferInstanceAs (Decidable (∀ c ∈ s.calls[i]?, ∀ p ∈ c.loaded,
      s.pending.live c.now = p.live c.now ∧
        ∀ d ∈ s.calls, ∀ code ∈ d.waitsFor, ∀ e ∈ s.pending.live d.now, e.hash = codeHash sha256 code →
          c.now < e.expiresAt))
  | .save _ false | .wait _ | .call _ | .load _ | .fail _ => .isTrue trivial

end Sys

end Steps

/-! ## What a step does -/

section Moves

variable {sha256 : ByteArray → List UInt8} {s s' : Sys} {e : Event} {i j : ℕ} {c d : Call} {r : Request}
variable {now : DateTime} {p q : Pending} {answer : Bool}

inductive Moves (sha256 : ByteArray → List UInt8) (s : Sys) : Event → Sys → Prop where
  | waited {now : DateTime} (hle : s.clock ≤ now) : Moves sha256 s (.wait now) { s with clock := now }
  | called {r : Request} (hfresh : s.Fresh r) :
      Moves sha256 s (.call r) { s with calls := s.calls ++ [⟨r, s.clock, .called⟩] }
  /-- The call goes on, or is over without having changed a thing. -/
  | moved {e : Event} {i : ℕ} {c : Call} {p : Phase} (hc : s.calls[i]? = some c)
      (hopen : ∀ ok, c.phase ≠ .returned ok) (hcalled : p ≠ .called) (htrue : p ≠ .returned true)
      (hnot : ∀ i, e ≠ .save i true) : Moves sha256 s e (s.setPhase i p)
  | saved {i : ℕ} {r : Request} {now : DateTime} {p q : Pending} {answer : Bool}
      (hc : s.calls[i]? = some ⟨r, now, .loaded p⟩) (hwork : r.work sha256 p now = (answer, some q)) :
      Moves sha256 s (.save i true) { s.setPhase i (.returned answer) with file := .pending q }

/-- A call that has nothing to save has not consumed its code. -/
theorem work_none (h : (r.work sha256 p now).2 = none) : (r.work sha256 p now).1 = false := by
  cases r with
  | create random ttlSecs => cases h
  | consume code =>
    simp only [Request.work] at h ⊢
    split at h
    · cases h
    · next hnot =>
      rw [Bool.or_eq_true, not_or] at hnot
      exact Bool.eq_false_iff.mpr hnot.1

theorem loadInto_moves (hc : s.calls[i]? = some ⟨r, now, .called⟩) :
    Moves sha256 s (.load i) (s.loadInto sha256 i ⟨r, now, .called⟩) := by
  unfold Sys.loadInto
  split
  · exact .moved hc nofun nofun nofun nofun
  · next p hload =>
    split
    · next ok hwork =>
      have hnone : (r.work sha256 p now).1 = false := work_none (congrArg Prod.snd hwork)
      have hfalse : ok = false := (congrArg Prod.fst hwork).symm.trans hnone
      refine .moved hc nofun nofun ?_ nofun
      rw [hfalse]
      nofun
    · exact .moved hc nofun nofun nofun nofun

theorem step_moves (h : s.step sha256 e = some s') : Moves sha256 s e s' := by
  cases e with
  | wait now =>
    simp only [Sys.step] at h
    split at h
    · next hle =>
      cases h
      exact .waited hle
    · cases h
  | call r =>
    simp only [Sys.step] at h
    split at h
    · next hfresh =>
      cases h
      exact .called hfresh
    · cases h
  | load i =>
    simp only [Sys.step] at h
    split at h
    · next hc =>
      cases h
      exact loadInto_moves hc
    · cases h
  | save i ok =>
    simp only [Sys.step] at h
    split at h
    · next hc =>
      split at h
      · next hwork =>
        cases ok with
        | true =>
          cases h
          exact .saved hc hwork
        | false =>
          cases h
          exact .moved hc nofun nofun nofun nofun
      · cases h
    · cases h
  | fail i =>
    simp only [Sys.step] at h
    split at h
    · next hc =>
      cases h
      exact .moved hc nofun nofun nofun nofun
    · cases h

/-- A call of the pool is an old one, further on perhaps, or has just been made. -/
theorem Moves.request (h : Moves sha256 s e s') (hd : s'.calls[j]? = some d) :
    (∃ c, s.calls[j]? = some c ∧ d.req = c.req ∧ d.now = c.now) ∨
      j = s.calls.length ∧ e = .call d.req ∧ d.now = s.clock ∧ s.Fresh d.req := by
  cases h with
  | waited hle => exact .inl ⟨d, hd, rfl, rfl⟩
  | called hfresh =>
    rcases Pool.getElem?_start hd with hold | ⟨rfl, rfl⟩
    · exact .inl ⟨d, hold, rfl, rfl⟩
    · exact .inr ⟨rfl, rfl, rfl, hfresh⟩
  | moved hc hopen hcalled htrue hnot =>
    rcases Pool.getElem?_modify hd with hold | ⟨rfl, c, hc, rfl⟩
    · exact .inl ⟨d, hold, rfl, rfl⟩
    · exact .inl ⟨c, hc, rfl, rfl⟩
  | saved hc hwork =>
    rcases Pool.getElem?_modify hd with hold | ⟨rfl, c, hc, rfl⟩
    · exact .inl ⟨d, hold, rfl, rfl⟩
    · exact .inl ⟨c, hc, rfl, rfl⟩

theorem Moves.clock (h : Moves sha256 s e s') : s.clock ≤ s'.clock := by
  cases h with
  | waited hle => exact hle
  | called | moved | saved => exact Int.le_refl _

/-- A call that has returned stays as it is. -/
theorem Moves.keeps {ok : Bool} (h : Moves sha256 s e s') (hc : s.calls[j]? = some ⟨r, now, .returned ok⟩) :
    s'.calls[j]? = some ⟨r, now, .returned ok⟩ := by
  cases h with
  | waited hle => exact hc
  | called hfresh =>
    obtain ⟨hlt, -⟩ := List.getElem?_eq_some_iff.mp hc
    exact (List.getElem?_append_left hlt).trans hc
  | @moved e i c p hi hopen hcalled htrue hnot =>
    have hij : i ≠ j := by
      rintro rfl
      cases hi.symm.trans hc
      exact hopen ok rfl
    exact (Pool.getElem?_unmodified hij).trans hc
  | @saved i r' now' p q answer hi hwork =>
    have hij : i ≠ j := by
      rintro rfl
      cases hi.symm.trans hc
    exact (Pool.getElem?_unmodified hij).trans hc

/-- A call that waits to load the file has waited before, or has just been made. -/
theorem Moves.waits (h : Moves sha256 s e s') (hc : ⟨r, now, .called⟩ ∈ s'.calls) :
    ⟨r, now, .called⟩ ∈ s.calls ∨ now = s.clock := by
  cases h with
  | waited hle => exact .inl hc
  | called hfresh =>
    rcases List.mem_append.mp hc with hold | hnew
    · exact .inl hold
    · cases List.mem_singleton.mp hnew
      exact .inr rfl
  | moved hi hopen hcalled htrue hnot =>
    rcases Pool.mem_modify hc with hold | ⟨c, -, heq⟩
    · exact .inl hold
    · exact absurd (congrArg Call.phase heq).symm hcalled
  | saved hi hwork =>
    rcases Pool.mem_modify hc with hold | ⟨c, -, heq⟩
    · exact .inl hold
    · exact absurd (congrArg Call.phase heq) nofun

/-- A call returns success when it saves. -/
theorem Moves.returned (h : Moves sha256 s e s') (hd : s'.calls[j]? = some ⟨r, now, .returned true⟩) :
    s.calls[j]? = some ⟨r, now, .returned true⟩ ∨
      e = .save j true ∧ ∃ p q, s.calls[j]? = some ⟨r, now, .loaded p⟩ ∧
        r.work sha256 p now = (true, some q) ∧ s'.file = .pending q := by
  cases h with
  | waited hle => exact .inl hd
  | called hfresh =>
    rcases Pool.getElem?_start hd with hold | ⟨-, heq⟩
    · exact .inl hold
    · exact absurd (congrArg Call.phase heq) nofun
  | moved hi hopen hcalled htrue hnot =>
    rcases Pool.getElem?_modify hd with hold | ⟨-, c, -, heq⟩
    · exact .inl hold
    · exact absurd (congrArg Call.phase heq).symm htrue
  | @saved i r' now' p q answer hi hwork =>
    rcases Pool.getElem?_modify hd with hold | ⟨rfl, c, hc, heq⟩
    · exact .inl hold
    · cases hi.symm.trans hc
      cases heq
      exact .inr ⟨rfl, p, q, hi, hwork, rfl⟩

/-- The file changes when a call saves. -/
theorem Moves.file (h : Moves sha256 s e s') : s'.file = s.file ∧ (∀ i, e ≠ .save i true) ∨
    ∃ i r now p q answer, e = .save i true ∧ s.calls[i]? = some ⟨r, now, .loaded p⟩ ∧
      r.work sha256 p now = (answer, some q) ∧
      s' = { s.setPhase i (.returned answer) with file := .pending q } := by
  cases h with
  | waited hle => exact .inl ⟨rfl, nofun⟩
  | called hfresh => exact .inl ⟨rfl, nofun⟩
  | moved hi hopen hcalled htrue hnot => exact .inl ⟨rfl, hnot⟩
  | saved hi hwork => exact .inr ⟨_, _, _, _, _, _, rfl, hi, hwork, rfl⟩

end Moves

/-! ## The invariant -/

/-- No two of the codes have one digest. -/
def CollisionFree (sha256 : ByteArray → List UInt8) (codes : List PairingCode) : Prop :=
  ∀ code ∈ codes, ∀ code' ∈ codes, sha256 code.toUTF8 = sha256 code'.toUTF8 → code = code'

instance (sha256 : ByteArray → List UInt8) (codes : List PairingCode) : Decidable (CollisionFree sha256 codes) :=
  inferInstanceAs (Decidable (∀ code ∈ codes, _))

/-- The codes that a run is about. -/
def Event.codes : Event → List PairingCode
  | .call r => [r.code]
  | _ => []

/-- What holds when every call saves what is current. Each code in the file is one that
has been created and not consumed, and each such code is there as long as it matters. -/
structure Sys.Inv (sha256 : ByteArray → List UInt8) (codes : List PairingCode) (s : Sys) : Prop where
  readable : ∀ why, s.file ≠ .unreadable why
  known : ∀ c ∈ s.calls, c.req.code ∈ codes
  since : ∀ c ∈ s.calls, c.now ≤ s.clock
  apart : ∀ (i j : ℕ) c d code, s.calls[i]? = some c → s.calls[j]? = some d → c.req.drawn = some code →
    d.req.drawn = some code → i = j
  once : ∀ (i j : ℕ) code now now', s.calls[i]? = some ⟨.consume code, now, .returned true⟩ →
    s.calls[j]? = some ⟨.consume code, now', .returned true⟩ → i = j
  nodup : (s.pending.codes.map PendingCode.hash).Nodup
  origin : ∀ c ∈ s.pending.codes, ∃ code, s.Created code c.expiresAt ∧ c.hash = codeHash sha256 code
  inTime : ∀ code now, s.Consumed code now → ∃ expiresAt, s.Created code expiresAt ∧ now < expiresAt
  spent : ∀ code now, s.Consumed code now → ∀ c ∈ s.pending.codes, c.hash ≠ codeHash sha256 code
  held : ∀ code expiresAt now, s.Created code expiresAt → (∀ now, ¬s.Consumed code now) → now < expiresAt →
    s.Due code now → ⟨codeHash sha256 code, expiresAt⟩ ∈ s.pending.codes

section Invariant

variable {sha256 : ByteArray → List UInt8} {codes : List PairingCode} {s s' : Sys} {e : Event}
variable {code : PairingCode} {now expiresAt : DateTime}

theorem Sys.Inv.load_file (hinv : s.Inv sha256 codes) : load s.file = (.ok s.pending, s.file) := by
  unfold Sys.pending
  cases hfile : s.file with
  | missing => rfl
  | pending p => rfl
  | unreadable why => exact (hinv.readable why hfile).elim

/-- The invariant is more than enough. -/
theorem Sys.Inv.sound (hinv : s.Inv sha256 codes) : s.Sound sha256 where
  once := hinv.once
  inTime := hinv.inTime
  accepted := by
    intro code expiresAt now hcreated hnot hlt hdue
    have hheld := hinv.held code expiresAt now hcreated hnot hlt hdue
    exact consume_accepts hinv.load_file ⟨_, mem_live.mpr ⟨hheld, hlt⟩, rfl⟩

/-- Among the codes that the calls are about, the hash tells them apart. -/
theorem Sys.Inv.code_eq (hinv : s.Inv sha256 codes) (hfree : CollisionFree sha256 codes) {c d : Call}
    (hc : c ∈ s.calls) (hd : d ∈ s.calls) (h : codeHash sha256 c.req.code = codeHash sha256 d.req.code) :
    c.req.code = d.req.code :=
  hfree _ (hinv.known c hc) _ (hinv.known d hd) (codeHash_inj h)

theorem Sys.Created.mem (h : s.Created code expiresAt) : ∃ c ∈ s.calls, c.req.code = code ∧ c.req.drawn = some code := by
  obtain ⟨random, ttlSecs, now, hc, hcode, -⟩ := h
  exact ⟨_, hc, hcode, congrArg some hcode⟩

/-- What has been created and consumed stays so. -/
theorem Moves.created (h : Moves sha256 s e s') (hc : s.Created code expiresAt) : s'.Created code expiresAt := by
  obtain ⟨random, ttlSecs, now, hc, hrest⟩ := hc
  obtain ⟨i, hi⟩ := List.mem_iff_getElem?.mp hc
  exact ⟨random, ttlSecs, now, List.mem_of_getElem? (h.keeps hi), hrest⟩

theorem Moves.consumed (h : Moves sha256 s e s') (hc : s.Consumed code now) : s'.Consumed code now := by
  obtain ⟨i, hi⟩ := List.mem_iff_getElem?.mp hc
  exact List.mem_of_getElem? (h.keeps hi)

/-- A call to consume a code that can still come could come before. -/
theorem Moves.due (h : Moves sha256 s e s') (hdue : s'.Due code now) : s.Due code now := by
  rcases hdue with hle | hwaits
  · exact .inl (Int.le_trans h.clock hle)
  · rcases h.waits hwaits with hold | rfl
    · exact .inr hold
    · exact .inl (Int.le_refl _)

/-! ### Calls -/

theorem known_step (hinv : s.Inv sha256 codes) (hcodes : ∀ code ∈ e.codes, code ∈ codes)
    (h : Moves sha256 s e s') : ∀ c ∈ s'.calls, c.req.code ∈ codes := by
  intro d hd
  obtain ⟨j, hj⟩ := List.mem_iff_getElem?.mp hd
  rcases h.request hj with ⟨c, hc, hreq, -⟩ | ⟨-, rfl, -, -⟩
  · rw [hreq]
    exact hinv.known c (List.mem_of_getElem? hc)
  · exact hcodes _ (List.mem_singleton_self _)

theorem since_step (hinv : s.Inv sha256 codes) (h : Moves sha256 s e s') : ∀ c ∈ s'.calls, c.now ≤ s'.clock := by
  intro d hd
  obtain ⟨j, hj⟩ := List.mem_iff_getElem?.mp hd
  rcases h.request hj with ⟨c, hc, -, hnow⟩ | ⟨-, -, hnow, -⟩
  · rw [hnow]
    exact Int.le_trans (hinv.since c (List.mem_of_getElem? hc)) h.clock
  · rw [hnow]
    exact h.clock

theorem apart_step (hinv : s.Inv sha256 codes) (h : Moves sha256 s e s') : ∀ (i j : ℕ) c d code,
    s'.calls[i]? = some c → s'.calls[j]? = some d → c.req.drawn = some code → d.req.drawn = some code → i = j := by
  intro i j c d code hc hd hcode hcode'
  rcases h.request hc with ⟨c₀, hc₀, hreq, -⟩ | ⟨rfl, -, -, hfresh⟩
  · rw [hreq] at hcode
    rcases h.request hd with ⟨d₀, hd₀, hreq', -⟩ | ⟨-, -, -, hfresh⟩
    · rw [hreq'] at hcode'
      exact hinv.apart i j c₀ d₀ code hc₀ hd₀ hcode hcode'
    · exact (hfresh code hcode' c₀ (List.mem_of_getElem? hc₀) hcode).elim
  · rcases h.request hd with ⟨d₀, hd₀, hreq', -⟩ | ⟨rfl, -, -, -⟩
    · rw [hreq'] at hcode'
      exact (hfresh code hcode d₀ (List.mem_of_getElem? hd₀) hcode').elim
    · rfl

/-! ### The file -/

/-- Whoever drops at `now` what has expired drops nothing that can still be accepted. -/
def Sys.Spares (sha256 : ByteArray → List UInt8) (s : Sys) (now : DateTime) : Prop :=
  ∀ code expiresAt now', s.Due code now' → ⟨codeHash sha256 code, expiresAt⟩ ∈ s.pending.codes → now' < expiresAt →
    now < expiresAt

/-- What a step does to the codes in the file when calls save what is current. -/
inductive FileStep (sha256 : ByteArray → List UInt8) (s s' : Sys) : Prop where
  | kept (hpending : s'.pending = s.pending)
      (hcreated : ∀ code expiresAt, s'.Created code expiresAt → s.Created code expiresAt)
      (hconsumed : ∀ code now, s'.Consumed code now → s.Consumed code now)
  | issued {c : Call} {random : Vector UInt8 8} {ttlSecs : UInt64} {now : DateTime} (hc : c ∈ s.calls)
      (hreq : c.req = .create random ttlSecs) (hspares : s.Spares sha256 now)
      (hnew : ∀ expiresAt, ¬s.Created (newCode random) expiresAt)
      (hpending : s'.pending = s.pending.issue sha256 (newCode random) ttlSecs now)
      (hself : s'.Created (newCode random) (expiry now ttlSecs))
      (hcreated : ∀ code expiresAt, s'.Created code expiresAt → s.Created code expiresAt ∨
        code = newCode random ∧ expiresAt = expiry now ttlSecs)
      (hconsumed : ∀ code now, s'.Consumed code now → s.Consumed code now)
  | redeemed {c : Call} {code : PairingCode} {now : DateTime} (hc : c ∈ s.calls) (hreq : c.req = .consume code)
      (hspares : s.Spares sha256 now) (hpending : s'.pending = (s.pending.redeem sha256 code now).2)
      (hself : (s.pending.redeem sha256 code now).1 = true → s'.Consumed code now)
      (hcreated : ∀ code expiresAt, s'.Created code expiresAt → s.Created code expiresAt)
      (hconsumed : ∀ code' now', s'.Consumed code' now' → s.Consumed code' now' ∨
        code' = code ∧ now' = now ∧ (s.pending.redeem sha256 code now).1 = true)

theorem Moves.created_or (h : Moves sha256 s e s') (hc : s'.Created code expiresAt) : s.Created code expiresAt ∨
    ∃ i random ttlSecs now p, e = .save i true ∧ s.calls[i]? = some ⟨.create random ttlSecs, now, .loaded p⟩ ∧
      code = newCode random ∧ expiresAt = expiry now ttlSecs := by
  obtain ⟨random, ttlSecs, now, hc, rfl, rfl⟩ := hc
  obtain ⟨j, hj⟩ := List.mem_iff_getElem?.mp hc
  rcases h.returned hj with hold | ⟨rfl, p, q, hloaded, -, -⟩
  · exact .inl ⟨random, ttlSecs, now, List.mem_of_getElem? hold, rfl, rfl⟩
  · exact .inr ⟨j, random, ttlSecs, now, p, rfl, hloaded, rfl, rfl⟩

theorem Moves.consumed_or (h : Moves sha256 s e s') (hc : s'.Consumed code now) : s.Consumed code now ∨
    ∃ i p, e = .save i true ∧ s.calls[i]? = some ⟨.consume code, now, .loaded p⟩ ∧
      (p.redeem sha256 code now).1 = true := by
  obtain ⟨j, hj⟩ := List.mem_iff_getElem?.mp hc
  rcases h.returned hj with hold | ⟨rfl, p, q, hloaded, hwork, -⟩
  · exact .inl (List.mem_of_getElem? hold)
  · exact .inr ⟨j, p, rfl, hloaded, congrArg Prod.fst hwork⟩

/-- A call that saves what is current drops nothing that can still be accepted. -/
theorem spares_of_current (hinv : s.Inv sha256 codes) {i : ℕ} {c : Call} {p : Pending}
    (hcurrent : s.Current sha256 (.save i true)) (hc : s.calls[i]? = some c) (hp : c.loaded = some p) :
    s.Spares sha256 c.now := by
  intro code expiresAt now' hdue hmem hlt
  rcases hdue with hclock | hwaits
  · exact Int.lt_of_le_of_lt (Int.le_trans (hinv.since c (List.mem_of_getElem? hc)) hclock) hlt
  · exact (hcurrent c hc p hp).2 _ hwaits code rfl _ (mem_live.mpr ⟨hmem, hlt⟩) rfl

/-- A call to create a code saves it. -/
theorem issued_of_save (hinv : s.Inv sha256 codes) {i : ℕ} {random : Vector UInt8 8} {ttlSecs : UInt64} {p : Pending}
    (hcurrent : s.Current sha256 (.save i true)) (hi : s.calls[i]? = some ⟨.create random ttlSecs, now, .loaded p⟩)
    (h : Moves sha256 s (.save i true) s')
    (hs' : s' = { s.setPhase i (.returned true) with
      file := .pending (p.issue sha256 (newCode random) ttlSecs now) }) : FileStep sha256 s s' := by
  have hlive : s.pending.live now = p.live now := (hcurrent _ hi p rfl).1
  have hself : ⟨.create random ttlSecs, now, .returned true⟩ ∈ s'.calls := by
    rw [hs']
    exact List.mem_of_getElem? (Pool.getElem?_modified hi)
  have hpending : s'.pending = s.pending.issue sha256 (newCode random) ttlSecs now := by
    rw [hs']
    exact (issue_congr hlive ttlSecs).symm
  refine .issued (List.mem_of_getElem? hi) rfl (spares_of_current hinv hcurrent hi rfl) (fun expiresAt hc => ?_)
    hpending ⟨random, ttlSecs, now, hself, rfl, rfl⟩ (fun code expiresAt hc => ?_) (fun code now hc => ?_)
  · -- No other call has drawn the code, and this one has not returned before.
    obtain ⟨random', ttlSecs', now', hc, hcode, -⟩ := hc
    obtain ⟨j, hj⟩ := List.mem_iff_getElem?.mp hc
    obtain rfl := hinv.apart i j _ _ (newCode random) hi hj rfl (congrArg some hcode)
    cases hi.symm.trans hj
  · rcases h.created_or hc with hold | ⟨j, random', ttlSecs', now', p', he, hj, hnew⟩
    · exact .inl hold
    · cases he
      cases hi.symm.trans hj
      exact .inr hnew
  · rcases h.consumed_or hc with hold | ⟨j, p', he, hj, -⟩
    · exact hold
    · cases he
      cases hi.symm.trans hj

/-- A call to consume a code saves the others. -/
theorem redeemed_of_save (hinv : s.Inv sha256 codes) {i : ℕ} {p : Pending}
    (hcurrent : s.Current sha256 (.save i true)) (hi : s.calls[i]? = some ⟨.consume code, now, .loaded p⟩)
    (h : Moves sha256 s (.save i true) s')
    (hs' : s' = { s.setPhase i (.returned (p.redeem sha256 code now).1) with
      file := .pending (p.redeem sha256 code now).2 }) : FileStep sha256 s s' := by
  -- what it loaded reads as the file does now, since no other call has saved in between
  have hredeem : s.pending.redeem sha256 code now = p.redeem sha256 code now :=
    redeem_congr (hcurrent _ hi p rfl).1
  have hself : ⟨.consume code, now, .returned (p.redeem sha256 code now).1⟩ ∈ s'.calls := by
    rw [hs']
    exact List.mem_of_getElem? (Pool.getElem?_modified hi)
  have hpending : s'.pending = (s.pending.redeem sha256 code now).2 := by
    rw [hs', hredeem]
    rfl
  refine .redeemed (List.mem_of_getElem? hi) rfl (spares_of_current hinv hcurrent hi rfl) hpending
    (fun htrue => ?_) (fun code expiresAt hc => ?_) (fun code' now' hc => ?_)
  · rw [← hredeem, htrue] at hself
    exact hself
  · rcases h.created_or hc with hold | ⟨j, random, ttlSecs, now', p', he, hj, -⟩
    · exact hold
    · cases he
      cases hi.symm.trans hj
  · rcases h.consumed_or hc with hold | ⟨j, p', he, hj, htrue⟩
    · exact .inl hold
    · cases he
      cases hi.symm.trans hj
      exact .inr ⟨rfl, rfl, hredeem ▸ htrue⟩

theorem file_step (hinv : s.Inv sha256 codes) (hcurrent : s.Current sha256 e) (h : Moves sha256 s e s') :
    FileStep sha256 s s' := by
  rcases h.file with ⟨hfile, hnot⟩ | ⟨i, r, now, p, q, answer, rfl, hi, hwork, hs'⟩
  · refine .kept (by rw [Sys.pending, hfile, Sys.pending]) (fun code expiresAt hc => ?_) (fun code now hc => ?_)
    · rcases h.created_or hc with hold | ⟨i, -, -, -, -, he, -⟩
      · exact hold
      · exact (hnot i he).elim
    · rcases h.consumed_or hc with hold | ⟨i, -, he, -⟩
      · exact hold
      · exact (hnot i he).elim
  · cases r with
    | create random ttlSecs =>
      cases hwork
      exact issued_of_save hinv hcurrent hi h hs'
    | consume code =>
      simp only [Request.work, Prod.mk.injEq, Option.ite_none_right_eq_some, Option.some.injEq] at hwork
      obtain ⟨rfl, -, rfl⟩ := hwork
      exact redeemed_of_save hinv hcurrent hi h hs'

/-- A code that is drawn has a hash that no code in the file has. -/
theorem hash_ne_of_new (hinv : s.Inv sha256 codes) (hfree : CollisionFree sha256 codes) {c : Call}
    (hc : c ∈ s.calls) (hnew : ∀ expiresAt, ¬s.Created c.req.code expiresAt) :
    ∀ d ∈ s.pending.codes, d.hash ≠ codeHash sha256 c.req.code := by
  intro d hd heq
  obtain ⟨code, hcreated, hhash⟩ := hinv.origin d hd
  obtain ⟨c', hc', rfl, -⟩ := hcreated.mem
  have hcode := hinv.code_eq hfree hc' hc (hhash.symm.trans heq)
  exact hnew d.expiresAt (hcode ▸ hcreated)

/-- A code that is accepted has been created, and has not expired. -/
theorem created_of_redeem (hinv : s.Inv sha256 codes) (hfree : CollisionFree sha256 codes) {c : Call}
    (hc : c ∈ s.calls) (h : (s.pending.redeem sha256 c.req.code now).1 = true) :
    ∃ expiresAt, s.Created c.req.code expiresAt ∧ now < expiresAt := by
  obtain ⟨d, hd, hhash⟩ := redeem_true.mp h
  obtain ⟨hmem, hlt⟩ := mem_live.mp hd
  obtain ⟨code, hcreated, hhash'⟩ := hinv.origin d hmem
  obtain ⟨c', hc', rfl, -⟩ := hcreated.mem
  have hcode := hinv.code_eq hfree hc' hc (hhash'.symm.trans hhash)
  exact ⟨d.expiresAt, hcode ▸ hcreated, hlt⟩

theorem nodup_step (hinv : s.Inv sha256 codes) (hfree : CollisionFree sha256 codes) (h : FileStep sha256 s s') :
    (s'.pending.codes.map PendingCode.hash).Nodup := by
  cases h with
  | kept hpending => exact hpending ▸ hinv.nodup
  | @issued c random ttlSecs now hc hreq hspares hnew hpending =>
    obtain ⟨req, now', phase⟩ := c
    cases hreq
    rw [hpending]
    exact nodup_issue hinv.nodup fun d hd => hash_ne_of_new hinv hfree hc hnew d (mem_live.mp hd).1
  | redeemed hc hreq hspares hpending =>
    rw [hpending]
    exact nodup_redeem hinv.nodup

theorem origin_step (hinv : s.Inv sha256 codes) (h : Moves sha256 s e s') (hfile : FileStep sha256 s s') :
    ∀ c ∈ s'.pending.codes, ∃ code, s'.Created code c.expiresAt ∧ c.hash = codeHash sha256 code := by
  have hold (c : PendingCode) (hc : c ∈ s.pending.codes) :
      ∃ code, s'.Created code c.expiresAt ∧ c.hash = codeHash sha256 code := by
    obtain ⟨code, hcreated, hhash⟩ := hinv.origin c hc
    exact ⟨code, h.created hcreated, hhash⟩
  intro c hc
  cases hfile with
  | kept hpending => exact hold c (hpending ▸ hc)
  | issued hcall hreq hspares hnew hpending hself =>
    rw [hpending] at hc
    rcases mem_issue.mp hc with hlive | rfl
    · exact hold c (mem_live.mp hlive).1
    · exact ⟨_, hself, rfl⟩
  | redeemed hcall hreq hspares hpending =>
    rw [hpending] at hc
    exact hold c (mem_live.mp ((mem_redeem hinv.nodup).mp hc).1).1

theorem inTime_step (hinv : s.Inv sha256 codes) (hfree : CollisionFree sha256 codes) (h : Moves sha256 s e s')
    (hfile : FileStep sha256 s s') (hc : s'.Consumed code now) :
    ∃ expiresAt, s'.Created code expiresAt ∧ now < expiresAt := by
  have hold (hc : s.Consumed code now) : ∃ expiresAt, s'.Created code expiresAt ∧ now < expiresAt := by
    obtain ⟨expiresAt, hcreated, hlt⟩ := hinv.inTime code now hc
    exact ⟨expiresAt, h.created hcreated, hlt⟩
  cases hfile with
  | kept hpending hcreated hconsumed => exact hold (hconsumed code now hc)
  | issued hcall hreq hspares hnew hpending hself hcreated hconsumed => exact hold (hconsumed code now hc)
  | @redeemed c code' now' hcall hreq hspares hpending hself hcreated hconsumed =>
    rcases hconsumed code now hc with hc | ⟨rfl, rfl, htrue⟩
    · exact hold hc
    · obtain ⟨req, now', phase⟩ := c
      cases hreq
      obtain ⟨expiresAt, hcreated, hlt⟩ := created_of_redeem hinv hfree hcall htrue
      exact ⟨expiresAt, h.created hcreated, hlt⟩

/-- No code in the file has the hash of a code that has been consumed. -/
theorem spent_step (hinv : s.Inv sha256 codes) (hfree : CollisionFree sha256 codes) (hfile : FileStep sha256 s s')
    (hc : s'.Consumed code now) : ∀ c ∈ s'.pending.codes, c.hash ≠ codeHash sha256 code := by
  intro d hd
  cases hfile with
  | kept hpending hcreated hconsumed => exact hinv.spent code now (hconsumed code now hc) d (hpending ▸ hd)
  | @issued c random ttlSecs now' hcall hreq hspares hnew hpending hself hcreated hconsumed =>
    have hc := hconsumed code now hc
    rw [hpending] at hd
    rcases mem_issue.mp hd with hlive | rfl
    · exact hinv.spent code now hc d (mem_live.mp hlive).1
    · -- The code that has been consumed was created, the new one was not.
      intro heq
      obtain ⟨expiresAt, hold, -⟩ := hinv.inTime code now hc
      obtain ⟨c', hc', rfl, -⟩ := hold.mem
      obtain ⟨req, now'', phase⟩ := c
      cases hreq
      have hcode : c'.req.code = newCode random := hinv.code_eq hfree hc' hcall heq.symm
      exact hnew expiresAt (hcode ▸ hold)
  | redeemed hcall hreq hspares hpending hself hcreated hconsumed =>
    rw [hpending] at hd
    obtain ⟨hlive, hne⟩ := (mem_redeem hinv.nodup).mp hd
    rcases hconsumed code now hc with hc | ⟨rfl, -, -⟩
    · exact hinv.spent code now hc d (mem_live.mp hlive).1
    · exact hne

/-- A code that nobody has consumed stays in the file as long as it can be accepted. -/
theorem held_step (hinv : s.Inv sha256 codes) (hfree : CollisionFree sha256 codes) (h : Moves sha256 s e s')
    (hfile : FileStep sha256 s s') (hcreated' : s'.Created code expiresAt) (hnot : ∀ now, ¬s'.Consumed code now)
    (hlt : now < expiresAt) (hdue : s'.Due code now) : ⟨codeHash sha256 code, expiresAt⟩ ∈ s'.pending.codes := by
  have hdue := h.due hdue
  have hold (hc : s.Created code expiresAt) : ⟨codeHash sha256 code, expiresAt⟩ ∈ s.pending.codes :=
    hinv.held code expiresAt now hc (fun now hc => hnot now (h.consumed hc)) hlt hdue
  cases hfile with
  | kept hpending hcreated => exact hpending ▸ hold (hcreated code expiresAt hcreated')
  | issued hcall hreq hspares hnew hpending hself hcreated =>
    rw [hpending, mem_issue]
    rcases hcreated code expiresAt hcreated' with hc | ⟨rfl, rfl⟩
    · exact .inl (mem_live.mpr ⟨hold hc, hspares code expiresAt now hdue (hold hc) hlt⟩)
    · exact .inr rfl
  | @redeemed c code' now' hcall hreq hspares hpending hself hcreated =>
    have hc := hcreated code expiresAt hcreated'
    have hlive := mem_live.mpr ⟨hold hc, hspares code expiresAt now hdue (hold hc) hlt⟩
    rw [hpending]
    refine (mem_redeem hinv.nodup).mpr ⟨hlive, fun heq => ?_⟩
    obtain ⟨d, hd, rfl, -⟩ := hc.mem
    obtain ⟨req, now'', phase⟩ := c
    cases hreq
    have hcode := hinv.code_eq hfree hd hcall heq
    rw [hcode] at hnot
    exact hnot now' (hself (redeem_true.mpr ⟨_, hlive, heq⟩))

theorem once_step (hinv : s.Inv sha256 codes) (hcurrent : s.Current sha256 e) (h : Moves sha256 s e s')
    (i j : ℕ) (code : PairingCode) (now now' : DateTime)
    (hi : s'.calls[i]? = some ⟨.consume code, now, .returned true⟩)
    (hj : s'.calls[j]? = some ⟨.consume code, now', .returned true⟩) : i = j := by
  -- A call that consumes the code now has found it in the file.
  have hfound {j : ℕ} {now : DateTime} {p q : Pending} (he : e = .save j true)
      (hj : s.calls[j]? = some ⟨.consume code, now, .loaded p⟩)
      (hwork : (Request.consume code).work sha256 p now = (true, some q)) :
      ∃ c ∈ s.pending.codes, c.hash = codeHash sha256 code := by
    subst he
    have htrue : (p.redeem sha256 code now).1 = true := congrArg Prod.fst hwork
    rw [← redeem_congr (hcurrent _ hj p rfl).1] at htrue
    obtain ⟨c, hc, hhash⟩ := redeem_true.mp htrue
    exact ⟨c, (mem_live.mp hc).1, hhash⟩
  rcases h.returned hi with hi | ⟨he, p, q, hi, hwork, -⟩
  · rcases h.returned hj with hj | ⟨he, p, q, hj, hwork, -⟩
    · exact hinv.once i j code now now' hi hj
    · obtain ⟨c, hc, hhash⟩ := hfound he hj hwork
      exact (hinv.spent code now (List.mem_of_getElem? hi) c hc hhash).elim
  · rcases h.returned hj with hj | ⟨he', -⟩
    · obtain ⟨c, hc, hhash⟩ := hfound he hi hwork
      exact (hinv.spent code now' (List.mem_of_getElem? hj) c hc hhash).elim
    · cases he.symm.trans he'
      rfl

theorem readable_step (hinv : s.Inv sha256 codes) (h : Moves sha256 s e s') (why : String) :
    s'.file ≠ .unreadable why := by
  rcases h.file with ⟨hfile, -⟩ | ⟨i, r, now, p, q, answer, -, -, -, rfl⟩
  · rw [hfile]
    exact hinv.readable why
  · nofun

theorem inv_step (hinv : s.Inv sha256 codes) (hfree : CollisionFree sha256 codes)
    (hcodes : ∀ code ∈ e.codes, code ∈ codes) (hcurrent : s.Current sha256 e) (h : Moves sha256 s e s') :
    s'.Inv sha256 codes :=
  have hfile := file_step hinv hcurrent h
  { readable := readable_step hinv h
    known := known_step hinv hcodes h
    since := since_step hinv h
    apart := apart_step hinv h
    once := once_step hinv hcurrent h
    nodup := nodup_step hinv hfree hfile
    origin := origin_step hinv h hfile
    inTime := fun _ _ => inTime_step hinv hfree h hfile
    spent := fun _ _ => spent_step hinv hfree hfile
    held := fun _ _ _ => held_step hinv hfree h hfile }

theorem inv_start (clock : DateTime) : (Sys.start clock).Inv sha256 codes where
  readable := nofun
  known := nofun
  since := nofun
  apart := by
    intro i j c d code hc
    cases hc
  once := nofun
  nodup := List.nodup_nil
  origin := nofun
  inTime := nofun
  spent := nofun
  held := by
    rintro code expiresAt now ⟨random, ttlSecs, now', hc, -⟩
    cases hc

end Invariant

/-- In every run whose calls save while the codes they have loaded are current, a code is
consumed by one call at most, only after it has been created and before it expires, and
until then it is accepted as long as nobody has consumed it. -/
theorem accepted_once (sha256 : ByteArray → List UInt8) (clock : DateTime) (es : List Event)
    (hfree : CollisionFree sha256 (es.flatMap Event.codes))
    (hmeet : Lts.StepsMeet (Sys.step sha256) (Sys.Current sha256) (.start clock) es) :
    Lts.Always (Sys.step sha256) (Sys.Sound sha256) (.start clock) es := by
  have hcodes : ∀ e ∈ es, ∀ code ∈ e.codes, code ∈ es.flatMap Event.codes :=
    fun e he code hcode => List.mem_flatMap.mpr ⟨e, he, hcode⟩
  have hstep : ∀ s e s', Sys.Inv sha256 (es.flatMap Event.codes) s →
      (s.Current sha256 e ∧ ∀ code ∈ e.codes, code ∈ es.flatMap Event.codes) → s.step sha256 e = some s' →
      Sys.Inv sha256 (es.flatMap Event.codes) s' :=
    fun s e s' hinv hc hs => inv_step hinv hfree hc.2 hc.1 (step_moves hs)
  exact Lts.always_of_stepsMeet (fun s hinv => hinv.sound) hstep (inv_start clock) (hmeet.and_mem hcodes)

/-! ## Calls that are not interrupted -/

section Uninterrupted

variable {sha256 : ByteArray → List UInt8} {s : Sys} {r : Request} {file : File} {p : Pending} {now : DateTime}

/-- The call as a whole. -/
def Request.handle (sha256 : ByteArray → List UInt8) (disk : Except String Unit) (now : DateTime) :
    Request → Act File String Bool
  | .create random ttlSecs => do
    let _ ← Pairing.create sha256 disk random ttlSecs now
    return true
  | .consume code => Pairing.consume sha256 disk code now

/-- What is left of a call when it has loaded the file. -/
theorem handle_run (disk : Except String Unit) (hload : load file = (.ok p, file)) :
    r.handle sha256 disk now file =
      match r.work sha256 p now with
      | (ok, none) => (.ok ok, file)
      | (ok, some q) =>
        match disk with
        | .ok () => (.ok ok, .pending q)
        | .error why => (.error why, file) := by
  cases r with
  | create random ttlSecs =>
    have hcreate : create sha256 disk random ttlSecs now file = _ := Act.bind_run_ok hload
    cases disk with
    | ok => exact Act.bind_run_ok hcreate
    | error why =>
      show Act.bind _ _ file = _
      rw [Act.bind, hcreate]
      rfl
  | consume code =>
    rw [Request.handle, consume, Act.bind_run_ok hload]
    unfold Request.work
    cases hneed : (p.redeem sha256 code now).1 ||
      decide ((p.redeem sha256 code now).2.codes.length ≠ p.codes.length) with
    | false =>
      simp only [hneed]
      rfl
    | true =>
      simp only [hneed]
      cases disk <;> rfl

/-- A call that is not interrupted does what `create` and `consume` do. -/
theorem call_uninterrupted (disk : Except String Unit) (hfresh : s.Fresh r)
    (hload : load s.file = (.ok p, s.file)) :
    ∃ es s', Lts.run (Sys.step sha256) s (.call r :: es) = some s' ∧
      Act.wp (r.handle sha256 disk s.clock) (fun res file => s'.file = file ∧
        ∀ ok, res = .ok ok → s'.calls[s.calls.length]? = some ⟨r, s.clock, .returned ok⟩) s.file := by
  let i := s.calls.length
  let c : Call := ⟨r, s.clock, .called⟩
  let s₁ : Sys := { s with calls := s.calls ++ [c] }
  have hc : s₁.calls[i]? = some c := Pool.getElem?_started
  have hcall : s.step sha256 (.call r) = some s₁ := if_pos hfresh
  have hstep : s₁.step sha256 (.load i) = some (s₁.loadInto sha256 i c) := by
    simp only [Sys.step, hc]
    rfl
  unfold Act.wp
  rw [handle_run disk hload]
  match hwork : r.work sha256 p s.clock with
  -- nothing to save: the call is over once the file is loaded
  | (ok, none) =>
    have hinto : s₁.loadInto sha256 i c = s₁.setPhase i (.returned ok) := by
      simp only [Sys.loadInto, s₁, hload, c, hwork]
    refine ⟨[.load i], _, Lts.run_cons_iff.mpr ⟨s₁, hcall, Lts.run_cons_iff.mpr ⟨_, hstep, rfl⟩⟩, ?_⟩
    rw [hinto]
    refine ⟨rfl, fun ok' hok => ?_⟩
    cases hok
    exact Pool.getElem?_modified hc
  | (ok, some q) =>
    have hinto : s₁.loadInto sha256 i c = s₁.setPhase i (.loaded p) := by
      simp only [Sys.loadInto, s₁, hload, c, hwork]
    rw [hinto] at hstep
    have hc₂ : (s₁.setPhase i (.loaded p)).calls[i]? = some ⟨r, s.clock, .loaded p⟩ := Pool.getElem?_modified hc
    cases disk with
    | ok =>
      have hsave : (s₁.setPhase i (.loaded p)).step sha256 (.save i true) =
          some { (s₁.setPhase i (.loaded p)).setPhase i (.returned ok) with file := .pending q } := by
        simp only [Sys.step, hc₂, hwork]
        rfl
      refine ⟨[.load i, .save i true], _, Lts.run_cons_iff.mpr ⟨s₁, hcall, Lts.run_cons_iff.mpr ⟨_, hstep,
        Lts.run_cons_iff.mpr ⟨_, hsave, rfl⟩⟩⟩, rfl, fun ok' hok => ?_⟩
      cases hok
      exact Pool.getElem?_modified hc₂
    -- the save fails, and the file is the one loaded
    | error why =>
      have hsave : (s₁.setPhase i (.loaded p)).step sha256 (.save i false) =
          some ((s₁.setPhase i (.loaded p)).setPhase i .failed) := by
        simp only [Sys.step, hc₂, hwork]
        rfl
      exact ⟨[.load i, .save i false], _, Lts.run_cons_iff.mpr ⟨s₁, hcall, Lts.run_cons_iff.mpr ⟨_, hstep,
        Lts.run_cons_iff.mpr ⟨_, hsave, rfl⟩⟩⟩, rfl, nofun⟩

end Uninterrupted

/-! ### Two handshakes at once -/

/-- The digest of the code in the runs below. -/
def sampleSha256 (bytes : ByteArray) : List UInt8 :=
  if bytes.data.toList = "0001020304050607".toUTF8.data.toList then
    [0x5e, 0x9b, 0x23, 0x4d, 0x8e, 0xc9, 0x05, 0x09, 0x5f, 0xab, 0x04, 0xe7, 0xe2, 0x68, 0x48, 0x2f,
      0x5e, 0x87, 0x0e, 0x9a, 0xd3, 0x58, 0xd6, 0x21, 0xa5, 0xe7, 0xa7, 0x65, 0xc2, 0xca, 0xa7, 0x1e]
  else bytes.data.toList

/-- A code is created and lasts for ten minutes. -/
def createSample : List Event := [.call (.create #v[0, 1, 2, 3, 4, 5, 6, 7] 600), .load 0, .save 0 true]

def consumeSample : Event := .call (.consume "0001020304050607")

/-- A code is created and consumed, and then not accepted again. -/
theorem accepted_once_in_turn :
    Lts.Always (Sys.step sampleSha256) (Sys.Sound sampleSha256) (.start 0)
      (createSample ++ [consumeSample, .load 1, .save 1 true, consumeSample, .load 2]) :=
  accepted_once sampleSha256 0 _ (by decide +kernel) (by decide +kernel)

/-- Two handshakes load the file before one of them saves it: both consume the code. -/
theorem consumed_twice : ∃ s : Sys,
    Lts.run (Sys.step sampleSha256) (.start 0)
      (createSample ++ [consumeSample, consumeSample, .load 1, .load 2, .save 1 true, .save 2 true]) = some s ∧
      ¬s.Sound sampleSha256 := by
  refine ⟨_, rfl, fun h => ?_⟩
  have heq := h.once 1 2 "0001020304050607" 0 0 (by decide +kernel) (by decide +kernel)
  cases heq

end Ipgate.Pairing
