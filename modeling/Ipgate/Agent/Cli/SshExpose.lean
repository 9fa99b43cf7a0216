-- SUMMARY: main.rs: closing and opening SSH from the console, and where the console and the remote request part.
import Ipgate.Agent.Api.Disk
import Ipgate.Agent.Api.Settings

/-!
# SSH exposure from the console

The console command reads the state file, rebuilds the table with the new setting and saves it.
The remote request does the same on the store in memory. `closing` says where both end as far as
the backend decides, and `console_agrees_iff` when they end alike.
-/

namespace Ipgate.Cli

open Act

/-! ## The command -/

section Command

variable {κ : Type}

/-- Which of the two switches is given. -/
def exposeMode : Bool → Bool → Except String Bool
  | true, false => .ok false
  | false, true => .ok true
  | _, _ => .error "请二选一指定 --open（对所有人开放）或 --allowlist（仅放行名单）"

def portHidesSetting (p : PublicPort) (sshPort : UInt16) : String :=
  let src := if p.fromConfig then "config.json" else "客户端添加"
  "公开端口 " ++ toString p.ports.start ++ "-" ++ toString p.ports.stop ++ "（" ++ src ++ "）包含 SSH 端口 " ++
    toString sshPort ++ "，开启仅名单不会生效。请先移除该公开端口。"

/-- The store as the state file has it. -/
def loadStore : Act (World (Machine κ)) String Unit := .modify fun w => { w with store := w.host.disk.written }

/-- Switch the exposure of SSH, with the setting in the store before the table is rebuilt. -/
def sshExposeCli (B : NftBackend κ) (cfg : AgentConfig) (openAll allowlist : Bool) :
    Act (World (Machine κ)) String Unit := do
  let on ← .lift (exposeMode openAll allowlist)
  loadStore
  let loaded ← .get
  match if on then cfg.publicPortCoveringSsh loaded.store.rulesetFlags else none with
  | some p => .fail (portHidesSetting p cfg.sshPort)
  | none => do
    let before := loaded.store.rulesetFlags
    let _ ← onStore fun s => s.setSshAllowlistOnly on
    let w ← .get
    let applied ← applyRuleset (machine B) (cfg.rulesetWith w.store.rulesetFlags) w.store.entries
    match applied.knock with
    | .rejected e => do
      -- Like the remote request: the table of the former settings again, and nothing is saved.
      let _ ← applyRuleset (machine B) (cfg.rulesetWith before) w.store.entries
      .fail (knockRejected e).message
    | _ => callSave (machine B)

end Command

/-! ## Where closing SSH ends -/

section Closing

variable {κ : Type} {H : Host κ} {B : NftBackend κ} {cfg : AgentConfig} {w : World κ}

/-- The ruleset that the kernel has in the end, the host with it, and whether the setting is to be saved. -/
structure Closing (κ : Type) where
  accepted : RulesetConfig
  host : κ
  saves : Bool

/-- The ladder for closed SSH; where it ends without the knock rules, the ladder of the stored settings. -/
def closing (H : Host κ) (cfg : AgentConfig) (w : World κ) : Closing κ :=
  let closed := cfg.rulesetWith (w.store.rulesetFlags.withSsh true)
  match ladder H closed w.store.entries w.host with
  | (none, k) => ⟨w.accepted, k, false⟩
  | (some c, k) =>
    if closed.knock.isSome && !c.1 then
      match ladder H (wanted cfg w) w.store.entries k with
      | (none, k') => ⟨candidate closed c.1 c.2, k', false⟩
      | (some c', k') => ⟨candidate (wanted cfg w) c'.1 c'.2, k', false⟩
    else ⟨candidate closed c.1 c.2, k, true⟩

/-- A command or a request went through or not, and has left the world as the closing says. -/
structure Ends (H : Host κ) (s : State) (e : Closing κ) (ok : Bool) (w' : World κ) : Prop where
  accepted : w'.accepted = e.accepted
  host : w'.host = if e.saves then (H.save s e.host).2 else e.host
  ok : ok = (e.saves && (H.save s e.host).1.isOk)

variable {now : DateTime}

/-- The knock rules are reported as refused exactly when the accepted table lacks them. -/
theorem gateState_knock (want : RulesetConfig) (c : Bool × Bool) (reason : String) :
    gateState reason want.knock.isSome c.1 = .rejected reason ∧ (want.knock.isSome && !c.1) = true ∨
      (∀ e, gateState reason want.knock.isSome c.1 ≠ .rejected e) ∧ (want.knock.isSome && !c.1) = false := by
  cases want.knock.isSome <;> cases c.1 <;> simp [gateState]

/-- What a rebuild does to the host and to the accepted ruleset, where the ladder ends as given. -/
structure Rebuilt {ε : Type} (want : RulesetConfig) (w : World κ) (end_ : Option (Bool × Bool) × κ)
    (r : Except ε Applied) (w' : World κ) : Prop where
  store : w'.store = w.store
  host : w'.host = end_.2
  refused : end_.1 = none → w'.accepted = w.accepted ∧ r.isOk = false
  taken : ∀ c, end_.1 = some c → w'.accepted = candidate want c.1 c.2 ∧ ∃ reason, r = .ok (report want c reason)

theorem applyRuleset_rebuilt (want : RulesetConfig) (entries : List Entry) (w : World κ) :
    wp (applyRuleset H want entries) (Rebuilt want w (ladder H want entries w.host)) w := by
  apply wp_mono (applyRuleset_ladder want entries w)
  intro r w' h
  cases hladder : ladder H want entries w.host with
  | mk c k =>
    rw [hladder] at h
    cases c with
    | none =>
      obtain ⟨rfl, e, rfl⟩ := h
      exact ⟨rfl, rfl, fun _ => ⟨rfl, rfl⟩, fun _ hc => nomatch hc⟩
    | some c =>
      obtain ⟨rfl, reason, rfl⟩ := h
      refine ⟨rfl, rfl, fun hc => (nomatch hc), fun d hd => ?_⟩
      cases hd
      exact ⟨rfl, reason, rfl⟩

theorem reapplyRuleset_rebuilt (flags : RulesetFlags) (entries : List Entry) (w : World κ) :
    wp (reapplyRuleset H cfg flags entries)
      (Rebuilt (cfg.rulesetWith flags) w (ladder H (cfg.rulesetWith flags) entries w.host)) w := by
  unfold reapplyRuleset
  rw [wp_bind, wp_mapErr]
  apply wp_mono (applyRuleset_rebuilt (cfg.rulesetWith flags) entries w)
  intro r w' h
  cases r with
  | error e => exact ⟨h.store, h.host, h.refused, fun c hc => by obtain ⟨-, reason, hr⟩ := h.taken c hc; cases hr⟩
  | ok applied =>
    refine ⟨h.store, h.host, fun hc => ?_, fun c hc => ?_⟩
    · have herr := (h.refused hc).2
      cases herr
    · obtain ⟨hacc, reason, hr⟩ := h.taken c hc
      cases hr
      exact ⟨hacc, reason, rfl⟩

theorem callSave_saves {s : State} {w₁ : World κ} (hs : w₁.store = s) : wp (callSave H) (fun r w' =>
    w'.accepted = w₁.accepted ∧ w'.host = (H.save s w₁.host).2 ∧ r.isOk = (H.save s w₁.host).1.isOk) w₁ := by
  subst hs
  exact ⟨rfl, rfl, rfl⟩

section Ladders

variable {want : RulesetConfig} {c : Bool × Bool} {k : κ}

theorem closing_refused (hwant : want = cfg.rulesetWith (w.store.rulesetFlags.withSsh true))
    (hladder : ladder H want w.store.entries w.host = (none, k)) : closing H cfg w = ⟨w.accepted, k, false⟩ := by
  subst hwant
  unfold closing
  simp only [hladder]

theorem closing_kept (hwant : want = cfg.rulesetWith (w.store.rulesetFlags.withSsh true))
    (hladder : ladder H want w.store.entries w.host = (some c, k)) (hin : (want.knock.isSome && !c.1) = false) :
    closing H cfg w = ⟨candidate want c.1 c.2, k, true⟩ := by
  subst hwant
  unfold closing
  simp only [hladder, hin, Bool.false_eq_true, if_false]

/-- The former table is put back, or stays away. -/
theorem closing_restored (hwant : want = cfg.rulesetWith (w.store.rulesetFlags.withSsh true))
    (hladder : ladder H want w.store.entries w.host = (some c, k)) (hout : (want.knock.isSome && !c.1) = true) :
    closing H cfg w = match ladder H (wanted cfg w) w.store.entries k with
      | (none, k') => ⟨candidate want c.1 c.2, k', false⟩
      | (some c', k') => ⟨candidate (wanted cfg w) c'.1 c'.2, k', false⟩ := by
  subst hwant
  unfold closing
  simp only [hladder, hout, if_true]

/-- The steps where the table for closed SSH lacks the knock rules. -/
theorem wp_restoring {ε α : Type} {second : Act (World κ) ε Applied} {e : ε} {s : State} {w₁ : World κ}
    (hwant : want = cfg.rulesetWith (w.store.rulesetFlags.withSsh true))
    (hladder : ladder H want w.store.entries w.host = (some c, w₁.host)) (hout : (want.knock.isSome && !c.1) = true)
    (htaken : w₁.accepted = candidate want c.1 c.2)
    (hsecond : wp second (Rebuilt (wanted cfg w) w₁ (ladder H (wanted cfg w) w.store.entries w₁.host)) w₁) :
    wp (do
      let _ ← second
      (.fail e : Act (World κ) ε α)) (fun r w' => Ends H s (closing H cfg w) r.isOk w') w₁ := by
  have hend := closing_restored hwant hladder hout
  rw [wp_bind]
  apply wp_mono hsecond
  intro r w₂ h
  cases hback : ladder H (wanted cfg w) w.store.entries w₁.host with
  | mk c' k' =>
    rw [hback] at h hend
    rw [hend]
    cases c' with
    | none =>
      obtain ⟨hkept, herr⟩ := h.refused rfl
      cases r with
      | ok applied => cases herr
      | error e => exact ⟨hkept.trans htaken, h.host, rfl⟩
    | some c' =>
      obtain ⟨hagain, reason, rfl⟩ := h.taken c' rfl
      exact ⟨hagain, h.host, rfl⟩

/-- The steps behind the checks: a rebuild, and another one or a save. -/
theorem wp_closing {ε α : Type} {first second : Act (World κ) ε Applied} {refuse : String → ε}
    {save : Act (World κ) ε α} {s : State} {w₀ : World κ} (hacc : w₀.accepted = w.accepted)
    (hwant : want = cfg.rulesetWith (w.store.rulesetFlags.withSsh true))
    (hfirst : wp first (Rebuilt want w₀ (ladder H want w.store.entries w.host)) w₀)
    (hsecond : ∀ w₁ : World κ, wp second
      (Rebuilt (wanted cfg w) w₁ (ladder H (wanted cfg w) w.store.entries w₁.host)) w₁)
    (hsave : ∀ w₁ : World κ, w₁.store = w₀.store → wp save (fun r w' => w'.accepted = w₁.accepted ∧
      w'.host = (H.save s w₁.host).2 ∧ r.isOk = (H.save s w₁.host).1.isOk) w₁) :
    wp (do
      let applied ← first
      match applied.knock with
      | .rejected e => do
        let _ ← second
        .fail (refuse e)
      | _ => save) (fun r w' => Ends H s (closing H cfg w) r.isOk w') w₀ := by
  rw [wp_bind]
  apply wp_mono hfirst
  intro r w₁ h₁
  cases hladder : ladder H want w.store.entries w.host with
  | mk c k =>
    rw [hladder] at h₁
    obtain rfl : w₁.host = k := h₁.host
    cases c with
    | none =>
      obtain ⟨hkept, herr⟩ := h₁.refused rfl
      cases r with
      | ok applied => cases herr
      | error e =>
        rw [closing_refused hwant hladder]
        exact ⟨hkept.trans hacc, rfl, rfl⟩
    | some c =>
      obtain ⟨htaken, reason, rfl⟩ := h₁.taken c rfl
      rw [andThen_ok]
      cases gateState_knock want c reason with
      | inl hrejected =>
        simp only [report, hrejected.1]
        exact wp_restoring hwant hladder hrejected.2 htaken (hsecond w₁)
      | inr hin =>
        have hends : wp save (fun r w' => Ends H s (closing H cfg w) r.isOk w') w₁ := by
          rw [closing_kept hwant hladder hin.2]
          apply wp_mono (hsave w₁ h₁.store)
          rintro r₂ w₂ ⟨hkept, hhost, hok⟩
          exact ⟨hkept.trans htaken, hhost, hok⟩
        split
        · next e hknock => exact (hin.1 e hknock).elim
        · exact hends

end Ladders

/-- A remote request that passes its checks ends where the closing ends. -/
theorem setSshExposure_ends (hlive : w.store.entries.any (fun e => !e.isExpired now) = true)
    (hcover : cfg.publicPortCoveringSsh (w.store.rulesetFlags.withSsh true) = none) :
    wp (setSshExposure H cfg true now)
      (fun r w' => Ends H (w.store.setSshAllowlistOnly true).2 (closing H cfg w) r.isOk w') w := by
  simp only [setSshExposure, wp_bind, wp_get, andThen_ok, rejectIf, wp_onlyIf, wp_fail, andThen_error]
  refine ⟨fun hempty => ?_, fun _ => ?_⟩
  · rw [hlive] at hempty
    cases hempty
  · rw [if_pos trivial, hcover]
    refine wp_closing rfl rfl (reapplyRuleset_rebuilt _ _ w) (reapplyRuleset_rebuilt _ _) fun w₁ hstore => ?_
    -- the request answers with the settings, whatever they are
    unfold commit
    simp only [wp_bind, onStore, wp_update, andThen_ok, saveStore, wp_mapErr, hstore]
    refine wp_mono (callSave_saves (s := w.store.setSshAllowlistOnly true |>.2) rfl) ?_
    rintro r w₂ ⟨hacc, hhost, hok⟩
    cases r with
    | error e => exact ⟨hacc, hhost, hok⟩
    | ok _ => exact ⟨hacc, hhost, hok⟩

/-- A console command whose check of the ports passes ends there too, with an empty list as well. -/
theorem sshExposeCli_ends {w : World (Machine κ)} (hload : w.store = w.host.disk.written)
    (hcover : cfg.publicPortCoveringSsh w.store.rulesetFlags = none) :
    wp (sshExposeCli B cfg false true)
      (fun r w' => Ends (machine B) (w.store.setSshAllowlistOnly true).2 (closing (machine B) cfg w) r.isOk w') w := by
  simp only [sshExposeCli, exposeMode, wp_bind, wp_lift, andThen_ok, loadStore, wp_modify, wp_get, ← hload]
  rw [if_pos trivial, hcover]
  dsimp only
  rw [wp_bind, onStore, wp_update, andThen_ok, wp_bind, wp_get, andThen_ok]
  refine wp_closing (w := w) rfl rfl (applyRuleset_rebuilt _ _ _) (fun w₁ => applyRuleset_rebuilt _ _ w₁)
    fun w₁ hstore => ?_
  exact callSave_saves hstore

end Closing

/-! ## Console and remote request -/

section Agreement

variable {κ : Type} {B : NftBackend κ} {cfg : AgentConfig} {w : World (Machine κ)} {now : DateTime}

/-- Two ways to close SSH go through or not alike, and leave the same settings in the state file and the same
ruleset in the kernel. -/
structure SameEnd {ε ε' α α' : Type} (a : Except ε α × World (Machine κ)) (b : Except ε' α' × World (Machine κ)) :
    Prop where
  ok : a.1.isOk = b.1.isOk
  flags : a.2.host.disk.written.rulesetFlags = b.2.host.disk.written.rulesetFlags
  accepted : a.2.accepted = b.2.accepted

/-- Closing SSH comes to nothing: the kernel has the ruleset it had, and if the setting is to be saved, the disk
refuses. -/
def Fruitless (B : NftBackend κ) (cfg : AgentConfig) (w : World (Machine κ)) : Prop :=
  let e := closing (machine B) cfg w
  e.accepted = w.accepted ∧
    (e.saves = true → (e.host.disk.save (w.store.setSshAllowlistOnly true).2).1.isOk = false)

theorem climb_disk (want : RulesetConfig) (entries : List Entry) (cs : List (Bool × Bool)) (m : Machine κ) :
    (climb (machine B) want entries cs m).2.disk = m.disk := by
  induction cs generalizing m with
  | nil => rfl
  | cons c cs ih =>
    have hkept : ((machine B).apply (candidate want c.1 c.2) entries m).2.disk = m.disk := rfl
    unfold climb
    cases happly : (machine B).apply (candidate want c.1 c.2) entries m with
    | mk r m' =>
      rw [happly] at hkept
      cases r with
      | ok _ => exact hkept
      | error e => exact (ih m').trans hkept

/-- The rebuilds leave the disk alone. -/
theorem closing_disk : (closing (machine B) cfg w).host.disk = w.host.disk := by
  have hfirst := climb_disk (B := B) (cfg.rulesetWith (w.store.rulesetFlags.withSsh true)) w.store.entries
    (rungs (cfg.rulesetWith (w.store.rulesetFlags.withSsh true))) w.host
  unfold closing ladder
  dsimp only
  cases hclimb : climb (machine B) (cfg.rulesetWith (w.store.rulesetFlags.withSsh true)) w.store.entries
    (rungs (cfg.rulesetWith (w.store.rulesetFlags.withSsh true))) w.host with
  | mk c m =>
    rw [hclimb] at hfirst
    cases c with
    | none => exact hfirst
    | some c =>
      dsimp only
      split
      · have hsecond := climb_disk (B := B) (wanted cfg w) w.store.entries (rungs (wanted cfg w)) m
        cases hback : climb (machine B) (wanted cfg w) w.store.entries (rungs (wanted cfg w)) m with
        | mk c' m' =>
          rw [hback] at hsecond
          cases c' with
          | none => exact hsecond.trans hfirst
          | some c' => exact hsecond.trans hfirst
      · exact hfirst

/-- A file that is not written stays as it is. -/
theorem save_written {d : Disk} {s : State} (h : (d.save s).1.isOk = false) : (d.save s).2.written = d.written := by
  unfold Disk.save at h ⊢
  cases hanswers : d.answers with
  | nil =>
    rw [hanswers] at h
    cases h
  | cons a rest =>
    rw [hanswers] at h
    cases a with
    | ok _ => cases h
    | error e => rfl

/-- A closing held against nothing done at all. -/
theorem sameEnd_refused_iff {r : Except String Unit} {w' : World (Machine κ)} {e : ApiError}
    (h : Ends (machine B) (w.store.setSshAllowlistOnly true).2 (closing (machine B) cfg w) r.isOk w') :
    SameEnd (r, w') ((.error e : Except ApiError AgentSettings), w) ↔ Fruitless B cfg w := by
  have hdisk : (closing (machine B) cfg w).host.disk = w.host.disk := closing_disk
  obtain ⟨hacc, hhost, hok⟩ := h
  unfold Fruitless
  constructor
  · intro hsame
    refine ⟨hacc.symm.trans hsame.accepted, fun hsaves => ?_⟩
    have herr : r.isOk = false := hsame.ok
    rw [hok, hsaves, Bool.true_and] at herr
    exact herr
  · rintro ⟨hkept, hrefused⟩
    cases hsaves : (closing (machine B) cfg w).saves with
    | false =>
      rw [hsaves, if_neg Bool.false_ne_true] at hhost
      rw [hsaves, Bool.false_and] at hok
      refine ⟨hok, ?_, hacc.trans hkept⟩
      rw [hhost, hdisk]
    | true =>
      rw [hsaves, if_pos rfl] at hhost
      rw [hsaves, Bool.true_and] at hok
      refine ⟨hok.trans (hrefused hsaves), ?_, hacc.trans hkept⟩
      have hwritten : w'.host.disk.written = w.host.disk.written := by
        rw [hhost, ← hdisk]
        exact save_written (hrefused hsaves)
      rw [hwritten]

theorem sshExposeCli_covered {p : PublicPort} (hload : w.store = w.host.disk.written)
    (hcover : cfg.publicPortCoveringSsh w.store.rulesetFlags = some p) :
    sshExposeCli B cfg false true w = (.error (portHidesSetting p cfg.sshPort), w) := by
  have hw : ({ w with store := w.host.disk.written } : World (Machine κ)) = w := by rw [← hload]
  have hsame : wp (sshExposeCli B cfg false true)
      (fun r w' => (r, w') = (.error (portHidesSetting p cfg.sshPort), w)) w := by
    simp only [sshExposeCli, exposeMode, wp_bind, wp_lift, andThen_ok, loadStore, wp_modify, wp_get, hw]
    rw [if_pos trivial, hcover]
    rfl
  exact hsame

/-- A remote request that a check stops does nothing. -/
theorem setSshExposure_stopped {H : Host (Machine κ)} (h : w.store.entries.any (fun e => !e.isExpired now) = false ∨
    (cfg.publicPortCoveringSsh w.store.rulesetFlags).isSome = true) :
    ∃ e, setSshExposure H cfg true now w = (.error e, w) := by
  have hsame : wp (setSshExposure H cfg true now) (fun r w' => ∃ e, (r, w') = (.error e, w)) w := by
    simp only [setSshExposure, wp_bind, wp_get, andThen_ok, rejectIf, wp_onlyIf, wp_fail, andThen_error]
    refine ⟨fun _ => ⟨_, rfl⟩, fun hsome => ?_⟩
    cases h with
    | inl hempty =>
      rw [hempty] at hsome
      cases hsome
    | inr hcover =>
      obtain ⟨p, hp⟩ := Option.isSome_iff_exists.mp hcover
      rw [if_pos trivial, show cfg.publicPortCoveringSsh (w.store.rulesetFlags.withSsh true) = some p from hp]
      exact ⟨_, rfl⟩
  exact hsame

/-- The console and the remote request close SSH alike if the list admits somebody, or if a public port stands in
the way. Only the request looks at the list: on one that admits nobody they part unless the console gets
nowhere. -/
theorem console_agrees_iff (B : NftBackend κ) (cfg : AgentConfig) (w : World (Machine κ)) (now : DateTime)
    (hload : w.store = w.host.disk.written) :
    SameEnd (sshExposeCli B cfg false true w) (setSshExposure (machine B) cfg true now w) ↔
      w.store.entries.any (fun e => !e.isExpired now) = true ∨
        (cfg.publicPortCoveringSsh w.store.rulesetFlags).isSome = true ∨ Fruitless B cfg w := by
  have hports : cfg.publicPortCoveringSsh (w.store.rulesetFlags.withSsh true) =
      cfg.publicPortCoveringSsh w.store.rulesetFlags := rfl
  cases hcover : cfg.publicPortCoveringSsh w.store.rulesetFlags with
  | some p =>
    obtain ⟨e, hrpc⟩ := setSshExposure_stopped (H := machine B) (w := w) (.inr (by rw [hcover]; rfl))
    rw [sshExposeCli_covered hload hcover, hrpc]
    exact iff_of_true ⟨rfl, rfl, rfl⟩ (.inr (.inl rfl))
  | none =>
    have hcli := sshExposeCli_ends (B := B) hload hcover
    -- Only the request looks whether the list admits anybody.
    cases hlive : w.store.entries.any (fun e => !e.isExpired now) with
    | true =>
      have hrpc := setSshExposure_ends (H := machine B) hlive (hports.trans hcover)
      refine iff_of_true ⟨hcli.ok.trans hrpc.ok.symm, ?_, hcli.accepted.trans hrpc.accepted.symm⟩ (.inl rfl)
      rw [hcli.host, hrpc.host]
    | false =>
      obtain ⟨e, hrpc⟩ := @setSshExposure_stopped κ cfg w now (machine B) (.inl hlive)
      rw [hrpc]
      refine (sameEnd_refused_iff hcli).trans ⟨fun hnothing => .inr (.inr hnothing), fun hcond => ?_⟩
      cases hcond with
      | inl hsome => cases hsome
      | inr hrest =>
        cases hrest with
        | inl hp => cases hp
        | inr hnothing => exact hnothing

end Agreement

/-! ### An empty list -/

/-- A kernel that takes every table. -/
def willing : NftBackend Unit where
  apply _ _ k := (.ok (), k)
  add _ k := (.ok (), k)
  remove _ k := (.ok (), k)
  list k := (.ok [], k)

/-- A host with the entries on its list, whose disk can be written. -/
def hostWith (entries : List Entry) : World (Machine Unit) where
  store := { State.default with entries := entries }
  live := ⟨false, false⟩
  host := ⟨(), ⟨{ State.default with entries := entries }, []⟩⟩
  accepted := knockConfig.rulesetWith State.default.rulesetFlags

/-- With somebody on the list the two agree. -/
theorem console_agrees_listed :
    let w := hostWith [⟨⟨0⟩, .v4 ⟨ipv4 203 0 113 7, 32, by decide⟩, "", none, 0, ⟨0⟩⟩]
    w.store = w.host.disk.written ∧
      SameEnd (sshExposeCli willing knockConfig false true w) (setSshExposure (machine willing) knockConfig true 0 w) :=
  ⟨rfl, (console_agrees_iff willing knockConfig _ 0 rfl).mpr (.inl rfl)⟩

/-- With nobody on the list the request is refused, and the console closes SSH. -/
theorem console_closes_empty :
    (sshExposeCli willing knockConfig false true (hostWith [])).1 = .ok () ∧
      (sshExposeCli willing knockConfig false true (hostWith [])).2.host.disk.written.sshAllowlistOnly = true ∧
      (sshExposeCli willing knockConfig false true (hostWith [])).2.accepted.sshAllowlistOnly = true ∧
      (setSshExposure (machine willing) knockConfig true 0 (hostWith [])).1 = .error allowlistEmpty ∧
      ¬SameEnd (sshExposeCli willing knockConfig false true (hostWith []))
        (setSshExposure (machine willing) knockConfig true 0 (hostWith [])) := by
  have hcli : (sshExposeCli willing knockConfig false true (hostWith [])).1 = .ok () := rfl
  have hrpc : (setSshExposure (machine willing) knockConfig true 0 (hostWith [])).1 = .error allowlistEmpty := rfl
  refine ⟨hcli, rfl, rfl, hrpc, fun hsame => ?_⟩
  have hok := hsame.ok
  rw [hcli, hrpc] at hok
  cases hok

end Ipgate.Cli
