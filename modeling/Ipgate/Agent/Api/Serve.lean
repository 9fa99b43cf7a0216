-- SUMMARY: The accept loop and its connections: permits, guards and timeouts, and that no device takes all the places.
import Ipgate.Agent.Api.ConnGuard
import Ipgate.Agent.Api.Limit

/-!
# Serving connections

A connection holds a permit from when it is accepted to its end, and from the end of its handshake
a guard of its device too. A handshake or a wait for the next request has a timer that ends the
connection; writing an answer has none. The runtime may be late: it takes each timer at most a `lag`
after it is over.
-/

namespace Ipgate.Serve

open Net Limit ConnGuard Slots

/-- Ten seconds. -/
def HANDSHAKE_TIMEOUT : ℕ := 10 * 1000000000

def MAX_CONCURRENT_CONNS : ℕ := 64

/-- Ten minutes. -/
def CONN_IDLE_TIMEOUT : ℕ := 600 * 1000000000

inductive Phase where
  | handshake
  /-- For the next request. -/
  | waiting (guard : DeviceConnGuard)
  /-- From a request until its answer is written. -/
  | answering (guard : DeviceConnGuard)

/-- A connection that has a permit, and when its phase began. -/
structure Conn where
  phase : Phase
  since : Instant

namespace Conn

def guard (c : Conn) : Option DeviceConnGuard :=
  match c.phase with
  | .handshake => none
  | .waiting g => some g
  | .answering g => some g

def key (c : Conn) : Option NoisePublicKey := c.guard.map DeviceConnGuard.key

/-- When the handshake began that is still going on. -/
def opening (c : Conn) : Option Instant :=
  match c.phase with
  | .handshake => some c.since
  | _ => none

/-- Writing an answer has no timeout. -/
def deadline (c : Conn) : Option Instant :=
  match c.phase with
  | .handshake => some (c.since + HANDSHAKE_TIMEOUT)
  | .waiting _ => some (c.since + CONN_IDLE_TIMEOUT)
  | .answering _ => none

/-- The timer is over for more than the lag. -/
def late (lag : ℕ) (now : Instant) (c : Conn) : Bool := c.deadline.any fun d => d + lag < now

/-- The guard is dropped, if there is one. -/
def release (m : DeviceConns) (c : Conn) : DeviceConns := (c.guard.map (DeviceConnGuard.drop m)).getD m

end Conn

structure Server where
  rate : RateLimiter
  /-- The permits that are left. -/
  available : ℕ
  devConns : DeviceConns
  conns : List Conn
  clock : Instant

inductive Event where
  | accept (peer : IpAddr)
  /-- A handshake ends well, and the peer has the key. -/
  | authenticated (i : ℕ) (key : NoisePublicKey)
  /-- A request arrives, from a device that the store still has or not. -/
  | request (i : ℕ) (known : Bool)
  | answered (i : ℕ)
  | timeout (i : ℕ)
  /-- The handshake fails, the peer is gone, or the answer cannot be written. -/
  | error (i : ℕ)

namespace Server

def new (rate : RateLimiter) (now : Instant) : Server := ⟨rate, MAX_CONCURRENT_CONNS, ∅, [], now⟩

/-- Time passes. The timers that are over for more than the lag have been taken by then, and have ended their
connections. -/
def tick (s : Server) (lag : ℕ) (now : Instant) : Server :=
  { s with
    available := s.available + s.conns.countP (Conn.late lag now)
    devConns := (s.conns.filter (Conn.late lag now)).foldl Conn.release s.devConns
    conns := s.conns.filter fun c => !c.late lag now
    clock := now }

/-- What is over a limit is dropped without a word. -/
def accept (s : Server) (peer : IpAddr) : Server :=
  let (allowed, rate) := s.rate.allow peer s.clock
  if allowed then
    if s.available = 0 then { s with rate }
    else { s with rate, available := s.available - 1, conns := s.conns ++ [⟨.handshake, s.clock⟩] }
  else { s with rate }

/-- The guard and the permit are dropped. -/
def finish (s : Server) (i : ℕ) (c : Conn) : Server :=
  { s with
    available := s.available + 1
    devConns := c.release s.devConns
    conns := s.conns.eraseIdx i }

def authenticated (s : Server) (i : ℕ) (c : Conn) (key : NoisePublicKey) : Server :=
  match devGuard s.devConns key with
  | (some g, m) => { s with devConns := m, conns := s.conns.set i ⟨.waiting g, s.clock⟩ }
  | (none, m) => finish { s with devConns := m } i c

/-- What an event does with the connection that it is about. -/
def effect (s : Server) : Event → Option Server
  | .accept peer => some (s.accept peer)
  | .authenticated i key => s.conns[i]?.bind fun c =>
    match c.phase with
    | .handshake => some (s.authenticated i c key)
    | _ => none
  | .request i known => s.conns[i]?.bind fun c =>
    match c.phase with
    | .waiting g => some (if known then { s with conns := s.conns.set i ⟨.answering g, s.clock⟩ } else s.finish i c)
    | _ => none
  | .answered i => s.conns[i]?.bind fun c =>
    match c.phase with
    | .answering g => some { s with conns := s.conns.set i ⟨.waiting g, s.clock⟩ }
    | _ => none
  | .timeout i => s.conns[i]?.bind fun c => if c.deadline.any (· ≤ s.clock) then some (s.finish i c) else none
  | .error i => s.conns[i]?.map (s.finish i)

/-- The slots of the devices. -/
def held (s : Server) : Multiset NoisePublicKey := heldBy Conn.key s.conns

/-- When the handshakes began that are still going on. -/
def openings (s : Server) : Multiset Instant := heldBy Conn.opening s.conns

/-- The connections of a device. -/
def connsOf (s : Server) (key : NoisePublicKey) : ℕ := s.conns.countP fun c => c.key = some key

end Server

open Server

/-- Time passes up to the event, and then it happens. -/
def step (lag : ℕ) (s : Server) (e : Event × Instant) : Option Server :=
  if s.clock ≤ e.2 then (s.tick lag e.2).effect e.1 else none

/-! ## What a step can do -/

section Steps

variable {lag : ℕ} {s s' : Server} {e : Event × Instant} {es : List (Event × Instant)} {now : Instant} {c : Conn} {i : ℕ}
variable {key : NoisePublicKey} {g : DeviceConnGuard} {m : DeviceConns}

/-- A connection is refused, is taken, gets its guard, goes on with the guard it has, or ends. -/
inductive Moves (s : Server) : Event → Server → Prop where
  | refused (peer : IpAddr) (rate : RateLimiter) : Moves s (.accept peer) { s with rate }
  | taken (peer : IpAddr) (rate : RateLimiter) (hleft : s.available ≠ 0) : Moves s (.accept peer)
      { s with rate, available := s.available - 1, conns := s.conns ++ [⟨.handshake, s.clock⟩] }
  | opened (i : ℕ) (c : Conn) (key : NoisePublicKey) (m : DeviceConns) (hc : s.conns[i]? = some c)
      (hphase : c.phase = .handshake) (hfree : Free PER_DEVICE_MAX_CONNS s.held key)
      (hcounts : Counts m (key ::ₘ s.held)) :
      Moves s (.authenticated i key) { s with devConns := m, conns := s.conns.set i ⟨.waiting ⟨key⟩, s.clock⟩ }
  | went (e : Event) (i : ℕ) (c : Conn) (g : DeviceConnGuard) (phase : Phase) (hc : s.conns[i]? = some c)
      (hbefore : c.guard = some g)
      (hafter : phase = .waiting g ∧ e = .answered i ∨ phase = .answering g ∧ e = .request i true) :
      Moves s e { s with conns := s.conns.set i ⟨phase, s.clock⟩ }
  | ended (e : Event) (i : ℕ) (c : Conn) (hc : s.conns[i]? = some c) : Moves s e (s.finish i c)

theorem authenticated_moves (h : Counts s.devConns s.held) (hc : s.conns[i]? = some c) (hphase : c.phase = .handshake) :
    Moves s (.authenticated i key) (s.authenticated i c key) := by
  have hmax : 1 ≤ PER_DEVICE_MAX_CONNS := by decide
  unfold Server.authenticated devGuard
  by_cases hfree : Free PER_DEVICE_MAX_CONNS s.held key
  · obtain ⟨m, hacquire, hcounts⟩ := acquire_of_free h hfree
    rw [hacquire]
    exact .opened i c key m hc hphase hfree hcounts
  · rw [acquire_of_not_free hmax h hfree]
    exact .ended _ i c hc

theorem effect_moves {ev : Event} (h : Counts s.devConns s.held) (heffect : s.effect ev = some s') :
    Moves s ev s' := by
  cases ev with
  | accept peer =>
    obtain rfl := Option.some.inj heffect
    unfold Server.accept
    dsimp only
    split
    · split
      · exact .refused peer _
      · next hleft => exact .taken peer _ hleft
    · exact .refused peer _
  | authenticated i key =>
    obtain ⟨c, hc, heffect⟩ := Option.bind_eq_some_iff.mp heffect
    split at heffect
    · next hphase =>
      obtain rfl := Option.some.inj heffect
      exact authenticated_moves h hc hphase
    · cases heffect
  | request i known =>
    obtain ⟨c, hc, heffect⟩ := Option.bind_eq_some_iff.mp heffect
    split at heffect
    · next g hphase =>
      have hguard : c.guard = some g := by
        unfold Conn.guard
        rw [hphase]
      obtain rfl := Option.some.inj heffect
      cases known with
      | true => exact .went _ i c g (.answering g) hc hguard (.inr ⟨rfl, rfl⟩)
      | false => exact .ended _ i c hc
    · cases heffect
  | answered i =>
    obtain ⟨c, hc, heffect⟩ := Option.bind_eq_some_iff.mp heffect
    split at heffect
    · next g hphase =>
      have hguard : c.guard = some g := by
        unfold Conn.guard
        rw [hphase]
      obtain rfl := Option.some.inj heffect
      exact .went _ i c g (.waiting g) hc hguard (.inl ⟨rfl, rfl⟩)
    · cases heffect
  -- Whatever the reason, a connection that ends gives up its guard and its permit.
  | timeout i =>
    obtain ⟨c, hc, heffect⟩ := Option.bind_eq_some_iff.mp heffect
    split at heffect
    · obtain rfl := Option.some.inj heffect
      exact .ended _ i c hc
    · cases heffect
  | error i =>
    obtain ⟨c, hc, rfl⟩ := Option.map_eq_some_iff.mp heffect
    exact .ended _ i c hc

/-- Every permit is left or held, the guards are counted, no device has too many, and no timer is late. -/
structure Sound (lag : ℕ) (s : Server) : Prop where
  permits : s.available + s.conns.length = MAX_CONCURRENT_CONNS
  counts : Counts s.devConns s.held
  within : Within PER_DEVICE_MAX_CONNS s.held
  onTime : ∀ c ∈ s.conns, c.late lag s.clock = false ∧ c.since ≤ s.clock

theorem Sound.of_held {H : Multiset NoisePublicKey} (hpermits : s.available + s.conns.length = MAX_CONCURRENT_CONNS)
    (hheld : s.held = H) (hcounts : Counts s.devConns H) (hwithin : Within PER_DEVICE_MAX_CONNS H)
    (hconns : ∀ c ∈ s.conns, c.late lag s.clock = false ∧ c.since ≤ s.clock) : Sound lag s := by
  subst hheld
  exact ⟨hpermits, hcounts, hwithin, hconns⟩

theorem sound_new (rate : RateLimiter) (now : Instant) : Sound lag (.new rate now) :=
  ⟨rfl, counts_empty, within_zero, by simp [Server.new]⟩

theorem since_le_deadline {d : Instant} (h : c.deadline = some d) : c.since ≤ d := by
  unfold Conn.deadline at h
  split at h
  · rw [← Option.some.inj h]
    exact Nat.le_add_right _ _
  · rw [← Option.some.inj h]
    exact Nat.le_add_right _ _
  · cases h

theorem late_eq_false : c.late lag now = false ↔ ∀ d, c.deadline = some d → now ≤ d + lag := by
  unfold Conn.late
  cases c.deadline with
  | none => simp
  | some d => simp

/-- A connection that begins a phase now is in time. -/
theorem late_fresh (phase : Phase) : Conn.late lag now ⟨phase, now⟩ = false :=
  late_eq_false.mpr fun d hd => Nat.le_trans (since_le_deadline hd) (Nat.le_add_right d lag)

theorem key_of_guard (h : c.guard = some g) : c.key = some g.key := by
  unfold Conn.key
  rw [h]
  rfl

theorem key_of_handshake (h : c.phase = .handshake) : c.key = none := by
  unfold Conn.key Conn.guard
  rw [h]
  rfl

theorem held_finish (hc : s.conns[i]? = some c) : slotOf c.key + (s.finish i c).held = s.held := heldBy_eraseIdx hc

/-- The slot of a connection is taken from the table with its guard. -/
theorem counts_release {held : Multiset NoisePublicKey} (h : Counts m (slotOf c.key + held)) :
    Counts (c.release m) held := by
  unfold Conn.release
  cases hguard : c.guard with
  | none =>
    have hkey : c.key = none := by
      unfold Conn.key
      rw [hguard]
      rfl
    rw [hkey] at h
    exact (zero_add held) ▸ h
  | some g =>
    rw [key_of_guard hguard] at h
    have hdrop := counts_drop (g := g) h (Multiset.mem_add.mpr (.inl (Multiset.mem_singleton_self _)))
    rw [slotOf, Multiset.singleton_add, Multiset.erase_cons_head] at hdrop
    exact hdrop

theorem counts_finish (h : Counts s.devConns s.held) (hc : s.conns[i]? = some c) :
    Counts (s.finish i c).devConns (s.finish i c).held :=
  counts_release ((held_finish hc).symm ▸ h)

theorem within_mono {held held' : Multiset NoisePublicKey} (h : Within PER_DEVICE_MAX_CONNS held)
    (hle : held' ≤ held) : Within PER_DEVICE_MAX_CONNS held' :=
  fun key => Nat.le_trans (Multiset.count_le_of_le key hle) (h key)

/-! ### Timers -/

/-- The timers take the slots of the connections that they end. -/
theorem counts_tick (cs : List Conn) (rest : Multiset NoisePublicKey) (h : Counts m (heldBy Conn.key cs + rest)) :
    Counts ((cs.filter (Conn.late lag now)).foldl Conn.release m)
      (heldBy Conn.key (cs.filter fun c => !c.late lag now) + rest) := by
  induction cs generalizing m rest with
  | nil => exact h
  | cons c cs ih =>
    rw [heldBy_cons, add_assoc] at h
    cases hlate : c.late lag now with
    | true =>
      rw [List.filter_cons_of_pos hlate, List.filter_cons_of_neg (by simp [hlate]), List.foldl_cons]
      exact ih rest (counts_release h)
    | false =>
      rw [add_left_comm] at h
      rw [List.filter_cons_of_neg (by simp [hlate]), List.filter_cons_of_pos (by simp [hlate]), heldBy_cons, add_assoc,
        add_left_comm]
      exact ih (slotOf c.key + rest) h

theorem heldBy_filter_le {α : Type} {f : Conn → Option α} (p : Conn → Bool) (cs : List Conn) :
    heldBy f (cs.filter p) ≤ heldBy f cs :=
  Multiset.coe_le.mpr ((List.filter_sublist (p := p)).filterMap f).subperm

theorem tick_sound (h : Sound lag s) (htime : s.clock ≤ now) : Sound lag (s.tick lag now) := by
  have hcounts : Counts (s.tick lag now).devConns (s.tick lag now).held := by
    have hall : Counts ((s.conns.filter (Conn.late lag now)).foldl Conn.release s.devConns)
        (heldBy Conn.key (s.conns.filter fun c => !c.late lag now) + 0) :=
      counts_tick s.conns 0 ((add_zero s.held).symm ▸ h.counts)
    rwa [add_zero] at hall
  refine ⟨?_, hcounts, within_mono h.within (heldBy_filter_le _ _), fun c hc => ?_⟩
  · have hlength : s.conns.length =
        s.conns.countP (Conn.late lag now) + (s.conns.filter fun c => !c.late lag now).length := by
      rw [List.length_eq_countP_add_countP (Conn.late lag now)]
      simp [List.countP_eq_length_filter]
    have hpermits := h.permits
    show s.available + s.conns.countP (Conn.late lag now) + (s.conns.filter fun c => !c.late lag now).length = _
    omega
  · obtain ⟨hmem, hlate⟩ := List.mem_filter.mp hc
    exact ⟨(Bool.not_eq_true' _).mp hlate, Nat.le_trans (h.onTime c hmem).2 htime⟩

/-! ### Events -/

theorem Moves.sound {ev : Event} (h : Sound lag s) (hmoves : Moves s ev s') : Sound lag s' := by
  have hset {i : ℕ} {phase : Phase} (c : Conn) (hc : c ∈ s.conns.set i ⟨phase, s.clock⟩) :
      c.late lag s.clock = false ∧ c.since ≤ s.clock := by
    rcases List.mem_or_eq_of_mem_set hc with hmem | rfl
    · exact h.onTime c hmem
    · exact ⟨late_fresh phase, Nat.le_refl _⟩
  cases hmoves with
  | refused peer rate => exact .of_held h.permits rfl h.counts h.within h.onTime
  | taken peer rate hleft =>
    have hnew (c : Conn) (hc : c ∈ s.conns ++ [⟨.handshake, s.clock⟩]) :
        c.late lag s.clock = false ∧ c.since ≤ s.clock := by
      rcases List.mem_append.mp hc with hmem | hlast
      · exact h.onTime c hmem
      · rw [List.mem_singleton.mp hlast]
        exact ⟨late_fresh .handshake, Nat.le_refl _⟩
    refine .of_held ?_ (heldBy_concat.trans (zero_add _)) h.counts h.within hnew
    have hpermits := h.permits
    change s.available - 1 + (s.conns ++ [_]).length = MAX_CONCURRENT_CONNS
    rw [List.length_append, List.length_singleton]
    omega
  | opened i c key m hc hphase hfree hcounts =>
    have herase : heldBy Conn.key (s.conns.eraseIdx i) = s.held := by
      have hsame := heldBy_eraseIdx (f := Conn.key) hc
      rw [key_of_handshake hphase] at hsame
      exact (zero_add _).symm.trans hsame
    have hheld : heldBy Conn.key (s.conns.set i ⟨.waiting ⟨key⟩, s.clock⟩) = key ::ₘ s.held := by
      rw [heldBy_set hc, herase]
      exact Multiset.singleton_add key _
    have htake := h.within.take key
    rw [take, if_pos hfree] at htake
    refine .of_held ?_ hheld hcounts htake hset
    change s.available + (s.conns.set i _).length = MAX_CONCURRENT_CONNS
    rw [List.length_set]
    exact h.permits
  | went _ i c g phase hc hbefore hafter =>
    have hkey : Conn.key ⟨phase, s.clock⟩ = c.key := by
      rw [key_of_guard hbefore]
      rcases hafter with ⟨rfl, -⟩ | ⟨rfl, -⟩ <;> rfl
    have hheld : heldBy Conn.key (s.conns.set i ⟨phase, s.clock⟩) = s.held := by
      rw [heldBy_set hc, hkey]
      exact heldBy_eraseIdx hc
    refine .of_held ?_ hheld h.counts h.within hset
    change s.available + (s.conns.set i _).length = MAX_CONCURRENT_CONNS
    rw [List.length_set]
    exact h.permits
  | ended _ i c hc =>
    obtain ⟨hlt, -⟩ := List.getElem?_eq_some_iff.mp hc
    have hle : (s.finish i c).held ≤ s.held := by
      rw [← held_finish hc]
      exact Multiset.le_add_left _ _
    refine .of_held ?_ rfl (counts_finish h.counts hc) (within_mono h.within hle)
      fun c hc => h.onTime c (List.mem_of_mem_eraseIdx hc)
    have hpermits := h.permits
    have hlength := List.length_eraseIdx_of_lt hlt
    change s.available + 1 + (s.conns.eraseIdx i).length = MAX_CONCURRENT_CONNS
    omega

/-- A step is a move at the time of the event. -/
theorem step_moves (h : Sound lag s) (hstep : step lag s e = some s') :
    s.clock ≤ e.2 ∧ Sound lag (s.tick lag e.2) ∧ Moves (s.tick lag e.2) e.1 s' := by
  unfold step at hstep
  split at hstep
  · next htime =>
    have htick := tick_sound h htime
    exact ⟨htime, htick, effect_moves htick.counts hstep⟩
  · cases hstep

theorem sound_run {rate : RateLimiter} {start : Instant} (hrun : Lts.run (step lag) (.new rate start) es = some s) :
    Sound lag s := by
  refine Lts.run_invariant (fun s e s' h hstep => ?_) (sound_new rate start) hrun
  obtain ⟨-, htick, hmoves⟩ := step_moves h hstep
  exact hmoves.sound htick

theorem count_held (s : Server) (key : NoisePublicKey) : s.held.count key = s.connsOf key := by
  unfold Server.held heldBy Server.connsOf
  rw [Multiset.coe_count, List.count, List.countP_filterMap]
  refine congrArg (List.countP · s.conns) (funext fun c => ?_)
  cases c.key <;> simp [beq_eq_decide]

/-- The phase of the connection began with its event. -/
def Began (es : List (Event × Instant)) (c : Conn) : Prop :=
  match c.phase with
  | .handshake => ∃ peer, (.accept peer, c.since) ∈ es
  | .waiting g => (∃ i, (.authenticated i g.key, c.since) ∈ es) ∨ ∃ i, (.answered i, c.since) ∈ es
  | .answering _ => ∃ i, (.request i true, c.since) ∈ es

theorem Began.mono {es es' : List (Event × Instant)} (h : Began es c) (hsub : es ⊆ es') : Began es' c := by
  unfold Began at h ⊢
  split at h
  · exact h.imp fun _ hmem => hsub hmem
  · exact h.imp (Exists.imp fun _ hmem => hsub hmem) (Exists.imp fun _ hmem => hsub hmem)
  · exact h.imp fun _ hmem => hsub hmem

/-- A connection is one that there was, or its phase begins with the event. -/
theorem Moves.began {ev : Event} (hmoves : Moves s ev s') (hc : c ∈ s'.conns) :
    c ∈ s.conns ∨ Began [(ev, s.clock)] c := by
  cases hmoves with
  | refused peer rate => exact .inl hc
  | taken peer rate hleft =>
    refine (List.mem_append.mp hc).imp_right fun hlast => ?_
    rw [List.mem_singleton.mp hlast]
    exact ⟨peer, List.mem_singleton_self _⟩
  | opened i c' key m hc' hphase hfree hcounts =>
    refine (List.mem_or_eq_of_mem_set hc).imp_right ?_
    rintro rfl
    exact .inl ⟨i, List.mem_singleton_self _⟩
  | went _ i c' g phase hc' hbefore hafter =>
    refine (List.mem_or_eq_of_mem_set hc).imp_right ?_
    rintro rfl
    rcases hafter with ⟨rfl, rfl⟩ | ⟨rfl, rfl⟩
    · exact .inr ⟨i, List.mem_singleton_self _⟩
    · exact ⟨i, List.mem_singleton_self _⟩
  | ended _ i c' hc' => exact .inl (List.mem_of_mem_eraseIdx hc)

theorem began_run {rate : RateLimiter} {start : Instant} (hrun : Lts.run (step lag) (.new rate start) es = some s) :
    ∀ c ∈ s.conns, Began es c := by
  refine Lts.run_history (P := fun es s => ∀ c ∈ s.conns, Began es c) (by simp [Server.new]) ?_ hrun
  intro xs t e t' hxs hall hstep c hc
  obtain ⟨-, -, hmoves⟩ := step_moves (sound_run hxs) hstep
  cases hmoves.began hc with
  | inl hold => exact (hall c (List.mem_filter.mp hold).1).mono (List.subset_append_left xs [e])
  | inr hnew => exact hnew.mono (List.subset_append_right xs [e])

/-- When the connections came. -/
def accepts (es : List (Event × Instant)) : Multiset Instant :=
  heldBy (fun e => match e.1 with | .accept _ => some e.2 | _ => none) es

/-- The connections that came within the time of a handshake. -/
def recent (lag : ℕ) (es : List (Event × Instant)) (now : Instant) : ℕ :=
  (accepts es).countP fun time => now ≤ time + HANDSHAKE_TIMEOUT + lag

theorem openings_eraseIdx_le (hc : s.conns[i]? = some c) : heldBy Conn.opening (s.conns.eraseIdx i) ≤ s.openings := by
  unfold Server.openings
  rw [← heldBy_eraseIdx hc]
  exact Multiset.le_add_left _ _

/-- A handshake begins with a connection that comes. -/
theorem Moves.openings_le {ev : Event} (hmoves : Moves s ev s') :
    s'.openings ≤ accepts [(ev, s.clock)] + s.openings := by
  cases hmoves with
  | refused peer rate => exact Multiset.le_add_left _ _
  | taken peer rate hleft =>
    have hnew : heldBy Conn.opening (s.conns ++ [⟨.handshake, s.clock⟩]) = {s.clock} + s.openings := heldBy_concat
    exact le_of_eq hnew
  | opened i c key m hc hphase hfree hcounts =>
    have hset : heldBy Conn.opening (s.conns.set i ⟨.waiting ⟨key⟩, s.clock⟩) = heldBy Conn.opening (s.conns.eraseIdx i) :=
      (heldBy_set hc _).trans (zero_add _)
    exact (le_of_eq hset).trans ((openings_eraseIdx_le hc).trans (Multiset.le_add_left _ _))
  | went _ i c g phase hc hbefore hafter =>
    have hnone : Conn.opening ⟨phase, s.clock⟩ = none := by
      rcases hafter with ⟨rfl, -⟩ | ⟨rfl, -⟩ <;> rfl
    have hset : heldBy Conn.opening (s.conns.set i ⟨phase, s.clock⟩) = heldBy Conn.opening (s.conns.eraseIdx i) := by
      rw [heldBy_set hc, hnone]
      exact zero_add _
    exact (le_of_eq hset).trans ((openings_eraseIdx_le hc).trans (Multiset.le_add_left _ _))
  | ended _ i c hc => exact (openings_eraseIdx_le hc).trans (Multiset.le_add_left _ _)

theorem openings_run {rate : RateLimiter} {start : Instant} (hrun : Lts.run (step lag) (.new rate start) es = some s) :
    s.openings ≤ accepts es := by
  refine Lts.run_history (P := fun es s => s.openings ≤ accepts es) (le_of_eq rfl) ?_ hrun
  intro xs t e t' hxs hle hstep
  obtain ⟨-, -, hmoves⟩ := step_moves (sound_run hxs) hstep
  refine hmoves.openings_le.trans ?_
  have hconcat : accepts (xs ++ [e]) = accepts [e] + accepts xs := by
    unfold accepts
    rw [heldBy_concat, heldBy_cons]
    exact congrArg (· + _) (add_zero _).symm
  rw [hconcat]
  exact Multiset.add_le_add_left ((heldBy_filter_le _ t.conns).trans hle)

/-- A handshake that is going on is one of a connection that came within the time of a handshake. -/
theorem card_openings_le {rate : RateLimiter} {start : Instant}
    (hrun : Lts.run (step lag) (.new rate start) es = some s) (htime : s.clock ≤ now) :
    (s.tick lag now).openings.card ≤ recent lag es now := by
  have hall : ∀ time ∈ (s.tick lag now).openings, now ≤ time + HANDSHAKE_TIMEOUT + lag := by
    intro time hopen
    obtain ⟨c, hc, hopening⟩ := List.mem_filterMap.mp hopen
    unfold Conn.opening at hopening
    split at hopening
    · next hphase =>
      obtain rfl := Option.some.inj hopening
      refine late_eq_false.mp ((tick_sound (sound_run hrun) htime).onTime c hc).1 _ ?_
      unfold Conn.deadline
      rw [hphase]
    · cases hopening
  rw [← Multiset.countP_eq_card.mpr hall]
  exact Multiset.countP_le_of_le _ ((heldBy_filter_le _ s.conns).trans (openings_run hrun))

/-- A connection is that of a device or still in its handshake. -/
theorem length_conns (s : Server) : s.conns.length = s.held.card + s.openings.card := by
  refine length_eq_card fun c _ => ?_
  unfold Conn.key Conn.guard Conn.opening
  cases c.phase <;> rfl

/-- A few devices and handshakes never take all the places: if those that have connections and the
connections that came within the time of a handshake are few enough, then a connection that the
limiter lets pass gets a place, and every device that has fewer than its limit gets its guard. -/
theorem few_devices_leave_room (lag : ℕ) (rate : RateLimiter) (start : Instant) (es : List (Event × Instant)) (s : Server)
    (hrun : Lts.run (step lag) (.new rate start) es = some s) (now : Instant) (htime : s.clock ≤ now)
    (hfew : PER_DEVICE_MAX_CONNS * (s.tick lag now).held.toFinset.card + recent lag es now < MAX_CONCURRENT_CONNS) :
    (∀ peer, (s.rate.allow peer now).1 = true →
      ∃ s', step lag s (.accept peer, now) = some s' ∧ s'.conns = (s.tick lag now).conns ++ [⟨.handshake, now⟩]) ∧
    ∀ key, (s.tick lag now).connsOf key < PER_DEVICE_MAX_CONNS →
      (devGuard (s.tick lag now).devConns key).1.isSome = true := by
  have h := tick_sound (sound_run hrun) htime
  have hheld := h.within.card_le
  have hopen := card_openings_le hrun htime
  have hlength := length_conns (s.tick lag now)
  have hpermits := h.permits
  have hleft : (s.tick lag now).available ≠ 0 := by omega
  constructor
  · intro peer hallow
    refine ⟨(s.tick lag now).accept peer, if_pos htime, ?_⟩
    have hallow' : ((s.tick lag now).rate.allow peer (s.tick lag now).clock).1 = true := hallow
    unfold Server.accept
    dsimp only
    rw [hallow', if_pos rfl, if_neg hleft]
    rfl
  · intro key hkey
    refine (acquire_isSome (by decide) h.counts).mpr ?_
    unfold Free
    rw [count_held]
    exact hkey

/-- A connection of a phone, and one of a stranger who sends nothing; eleven seconds later the phone has a request. -/
def phoneAndStranger : List (Event × Instant) :=
  [(.accept (.v4 0x7f000001), 0), (.authenticated 0 "phone", 1), (.accept (.v4 0x7f000001), 2),
    (.request 0 true, 11 * 1000000000)]

theorem room_beside_phone : ∃ s, Lts.run (step 0) (.new (.new 0 60) 0) phoneAndStranger = some s ∧
    ∃ s', step 0 s (.accept (.v4 0x7f000001), 12 * 1000000000) = some s' ∧ s'.conns.length = 2 := by
  have hsome : (Lts.run (step 0) (.new (.new 0 60) 0) phoneAndStranger).map
      (fun s => (decide (s.clock ≤ 12 * 1000000000), (s.tick 0 (12 * 1000000000)).held.toFinset.card,
        recent 0 phoneAndStranger (12 * 1000000000), (s.rate.allow (.v4 0x7f000001) (12 * 1000000000)).1,
        (s.tick 0 (12 * 1000000000)).conns.length)) = some (true, 1, 0, true, 1) := by decide +kernel
  obtain ⟨s, hrun, hfive⟩ := Option.map_eq_some_iff.mp hsome
  simp only [Prod.mk.injEq, decide_eq_true_eq] at hfive
  obtain ⟨htime, hcard, hrecent, hallow, hlength⟩ := hfive
  have hfew : PER_DEVICE_MAX_CONNS * (s.tick 0 (12 * 1000000000)).held.toFinset.card +
      recent 0 phoneAndStranger (12 * 1000000000) < MAX_CONCURRENT_CONNS := by
    rw [hcard, hrecent]
    decide
  obtain ⟨hroom, -⟩ := few_devices_leave_room 0 (.new 0 60) 0 phoneAndStranger s hrun _ htime hfew
  obtain ⟨s', hstep, hconns⟩ := hroom _ hallow
  refine ⟨s, hrun, s', hstep, ?_⟩
  rw [hconns, List.length_append, hlength]
  rfl

end Steps

end Ipgate.Serve
