-- SUMMARY: What a rebuild reports, held against the calls it made, and that no error it passes on has the knock token in it.
import Ipgate.Agent.Nft.Backend

/-!
# What a rebuild reports

The backend may answer every call differently. `Host.recorded` keeps a record of
the rulesets offered to it, without changing what happens otherwise, and
`applyRuleset_reports` compares the result of a rebuild with the record.
`applyRuleset_hides_token` says what the errors of the backend are stripped of.
-/

namespace Ipgate

/-! ## Calls on record -/

/-- A ruleset offered to the backend, with its answer. -/
structure Offer where
  config : RulesetConfig
  answer : Except String Unit

def Offer.accepted (o : Offer) : Bool := o.answer.isOk

/-- The host with a record of the rulesets offered to it. -/
def Host.recorded {κ : Type} (H : Host κ) : Host (κ × List Offer) where
  apply c entries k :=
    let out := H.apply c entries k.1
    (out.1, out.2, k.2 ++ [⟨c, out.1⟩])
  add entry k := ((H.add entry k.1).1, (H.add entry k.1).2, k.2)
  remove target k := ((H.remove target k.1).1, (H.remove target k.1).2, k.2)
  list k := ((H.list k.1).1, (H.list k.1).2, k.2)
  save s k := ((H.save s k.1).1, (H.save s k.1).2, k.2)

/-- The world with nothing on record. -/
def World.recorded {κ : Type} (w : World κ) : World (κ × List Offer) :=
  ⟨w.store, w.live, (w.host, []), w.accepted⟩

/-- The world without the record. -/
def World.unrecorded {κ : Type} (w : World (κ × List Offer)) : World κ :=
  ⟨w.store, w.live, w.host.1, w.accepted⟩

variable {κ : Type} {H : Host κ} {cfg : RulesetConfig} {entries : List Entry} {k : κ}
variable {cs tried : List (Bool × Bool)} {end_ : Option (Bool × Bool)} {offers : List Offer}

/-- Keeping a record changes nothing else. -/
theorem tryCandidates_unrecorded {firstErr : Option String} (w : World (κ × List Offer)) :
    tryCandidates H cfg entries cs tried firstErr w.unrecorded =
      ((tryCandidates H.recorded cfg entries cs tried firstErr w).1,
        (tryCandidates H.recorded cfg entries cs tried firstErr w).2.unrecorded) := by
  induction cs generalizing tried firstErr w with
  | nil => rfl
  | cons cand rest ih =>
    by_cases hcand : cand ∈ tried
    · rw [tryCandidates_tried hcand, tryCandidates_tried hcand]
      exact ih w
    · cases happly : H.apply (candidate cfg cand.1 cand.2) entries w.host.1 with
      | mk r k =>
        have hrec : H.recorded.apply (candidate cfg cand.1 cand.2) entries w.host =
            (r, k, w.host.2 ++ [⟨candidate cfg cand.1 cand.2, r⟩]) := by
          unfold Host.recorded
          dsimp only
          rw [happly]
        have hhost : H.apply (candidate cfg cand.1 cand.2) entries w.unrecorded.host = (r, k) := happly
        cases r with
        | ok _ =>
          rw [tryCandidates_accepted hcand hhost, tryCandidates_accepted hcand hrec]
          rfl
        | error e =>
          rw [tryCandidates_refused hcand hhost, tryCandidates_refused hcand hrec]
          split
          · rfl
          · exact ih ⟨w.store, w.live, (k, w.host.2 ++ [⟨candidate cfg cand.1 cand.2, .error e⟩]), w.accepted⟩

/-! ## The climb on record -/

variable (H cfg entries) in
/-- Offers made going down a list of rungs, up to the first that is accepted. -/
inductive Climbed : List (Bool × Bool) → Option (Bool × Bool) → List Offer → Prop where
  | bottom : Climbed [] none []
  | accepted {c : Bool × Bool} {cs : List (Bool × Bool)} {k k' : κ}
      (h : H.apply (candidate cfg c.1 c.2) entries k = (.ok (), k')) :
      Climbed (c :: cs) (some c) [⟨candidate cfg c.1 c.2, .ok ()⟩]
  | refused {c : Bool × Bool} {cs : List (Bool × Bool)} {end_ : Option (Bool × Bool)} {offers : List Offer}
      {e : String} {k k' : κ} (h : H.apply (candidate cfg c.1 c.2) entries k = (.error e, k'))
      (rest : Climbed cs end_ offers) :
      Climbed (c :: cs) end_ (⟨candidate cfg c.1 c.2, .error e⟩ :: offers)

/-- The record of a climb is that of its offers. -/
theorem climb_recorded (cs : List (Bool × Bool)) (k : κ) (log : List Offer) : ∃ offers,
    (climb H.recorded cfg entries cs (k, log)).2.2 = log ++ offers ∧
      Climbed H cfg entries cs (climb H.recorded cfg entries cs (k, log)).1 offers := by
  induction cs generalizing k log with
  | nil => exact ⟨[], (List.append_nil log).symm, .bottom⟩
  | cons c cs ih =>
    cases happly : H.apply (candidate cfg c.1 c.2) entries k with
    | mk r k' =>
      have hrec : H.recorded.apply (candidate cfg c.1 c.2) entries (k, log) =
          (r, k', log ++ [⟨candidate cfg c.1 c.2, r⟩]) := by
        unfold Host.recorded
        dsimp only
        rw [happly]
      unfold climb
      rw [hrec]
      cases r with
      | ok _ => exact ⟨_, rfl, .accepted happly⟩
      | error e =>
        obtain ⟨offers, hlog, hclimbed⟩ := ih k' (log ++ [⟨candidate cfg c.1 c.2, .error e⟩])
        exact ⟨_, by rw [hlog, List.append_assoc]; rfl, .refused happly hclimbed⟩

namespace Climbed

/-- Nothing is offered twice, as the rungs differ. -/
theorem configs_prefix (h : Climbed H cfg entries cs end_ offers) :
    offers.map Offer.config <+: cs.map fun c => candidate cfg c.1 c.2 := by
  induction h with
  | bottom => exact List.prefix_rfl
  | accepted => exact List.cons_prefix_cons.mpr ⟨rfl, List.nil_prefix⟩
  | refused _ _ ih => exact List.cons_prefix_cons.mpr ⟨rfl, ih⟩

/-- What was accepted is the last offer. -/
theorem of_some {c : Bool × Bool} (h : Climbed H cfg entries cs end_ offers) (hend : end_ = some c) :
    c ∈ cs ∧ ∃ refused, offers = refused ++ [⟨candidate cfg c.1 c.2, .ok ()⟩] ∧
      ∀ o ∈ refused, o.accepted = false := by
  induction h with
  | bottom => cases hend
  | accepted =>
    cases hend
    exact ⟨List.mem_cons_self .., [], rfl, by simp⟩
  | refused _ _ ih =>
    obtain ⟨hmem, refused, hoffers, hrefused⟩ := ih hend
    exact ⟨List.mem_cons_of_mem _ hmem, _ :: refused, congrArg (_ :: ·) hoffers,
      List.forall_mem_cons.mpr ⟨rfl, hrefused⟩⟩

/-- Where nothing was accepted, everything was refused. -/
theorem of_none (h : Climbed H cfg entries cs end_ offers) (hend : end_ = none) :
    (∀ o ∈ offers, o.accepted = false) ∧
      offers.map Offer.config = cs.map fun c => candidate cfg c.1 c.2 := by
  induction h with
  | bottom => exact ⟨by simp, rfl⟩
  | accepted => cases hend
  | refused _ _ ih =>
    obtain ⟨hrefused, hconfigs⟩ := ih hend
    exact ⟨List.forall_mem_cons.mpr ⟨rfl, hrefused⟩, congrArg (_ :: ·) hconfigs⟩

/-- Where a predicate decides, the climb ends at the first rung that meets it. -/
theorem find_eq {accepts : RulesetConfig → Bool} (h : Climbed H cfg entries cs end_ offers)
    (haccepts : ∀ c k, (H.apply c entries k).1.isOk = accepts c) :
    (cs.map fun c => candidate cfg c.1 c.2).find? accepts = end_.map fun c => candidate cfg c.1 c.2 := by
  induction h with
  | bottom => rfl
  | @accepted c cs k k' happly =>
    have hyes := haccepts (candidate cfg c.1 c.2) k
    rw [happly] at hyes
    rw [List.map_cons, List.find?_cons_of_pos hyes.symm]
    rfl
  | @refused c cs end_ offers e k k' happly _ ih =>
    have hno := haccepts (candidate cfg c.1 c.2) k
    rw [happly] at hno
    rw [List.map_cons, List.find?_cons_of_neg (by simp [← hno, Except.isOk, Except.toBool]), ih]

end Climbed

/-! ## The report -/

/-- The ruleset `c` is `cfg`, but the forward gate and the knock parameters may have been
dropped. -/
structure RulesetConfig.Drops (c cfg : RulesetConfig) : Prop where
  gate : c.forwardAllowlistOnly = cfg.forwardAllowlistOnly ∨ c.forwardAllowlistOnly = false
  knock : c.sshKnock = cfg.sshKnock ∨ c.sshKnock = none
  rest : c = { cfg with forwardAllowlistOnly := c.forwardAllowlistOnly, sshKnock := c.sshKnock }

/-- What is said of a part of the ruleset that was wanted or not, and is there or not. -/
structure Gate.Reports (g : Gate) (want got : Bool) : Prop where
  off : g = .off ↔ want = false
  active : g = .active ↔ want ∧ got
  rejected : (∃ e, g = .rejected e) ↔ want ∧ got = false

/-- What the result of a rebuild says of the offers made for it. -/
structure Reported (cfg : RulesetConfig) (r : Except String Applied) (offers : List Offer) : Prop where
  once : (offers.map Offer.config).Nodup
  ok : ∀ a, r = .ok a → ∃ refused c, offers = refused ++ [⟨c, .ok ()⟩] ∧
    (∀ o ∈ refused, o.accepted = false) ∧ c.Drops cfg ∧
    a.gate.Reports cfg.forwardAllowlistOnly c.forwardAllowlistOnly ∧
    a.knock.Reports cfg.knock.isSome c.knock.isSome
  error : ∀ e, r = .error e → (∀ o ∈ offers, o.accepted = false) ∧
    ∃ o ∈ offers, o.config = { cfg with forwardAllowlistOnly := false, sshKnock := none }

/-- The ruleset that was accepted. -/
def installed (offers : List Offer) : Option RulesetConfig := (offers.find? Offer.accepted).map Offer.config

/-- Both parts, the gate only, the knock rules only, none; as far as they are wanted. -/
def preferences (cfg : RulesetConfig) : List RulesetConfig :=
  let wanted (c : Bool × Bool) : Bool := (c.1 → cfg.knock.isSome) && (c.2 → cfg.forwardAllowlistOnly)
  ([(true, true), (false, true), (true, false), (false, false)].filter wanted).map fun c =>
    candidate cfg c.1 c.2

theorem preferences_eq (cfg : RulesetConfig) :
    preferences cfg = (rungs cfg).map fun c => candidate cfg c.1 c.2 := by
  unfold preferences rungs
  cases cfg.knock.isSome <;> cases cfg.forwardAllowlistOnly <;> rfl

theorem plain_mem_rungs (cfg : RulesetConfig) : (false, false) ∈ rungs cfg := by
  unfold rungs
  cases cfg.knock.isSome <;> cases cfg.forwardAllowlistOnly <;> decide

theorem isSome_of_knock (h : cfg.knock.isSome = true) : cfg.sshKnock.isSome = true := by
  unfold RulesetConfig.knock at h
  cases hk : cfg.sshKnock with
  | none => rw [hk] at h; exact h
  | some k => rfl

/-- Different rungs are different rulesets. -/
theorem candidate_inj {c d : Bool × Bool} (hc : c ∈ rungs cfg) (hd : d ∈ rungs cfg)
    (h : candidate cfg c.1 c.2 = candidate cfg d.1 d.2) : c = d := by
  have hgate : c.2 = d.2 := congrArg RulesetConfig.forwardAllowlistOnly h
  have hknock : (if c.1 then cfg.sshKnock else none) = if d.1 then cfg.sshKnock else none :=
    congrArg RulesetConfig.sshKnock h
  refine Prod.ext ?_ hgate
  by_cases hwant : cfg.knock.isSome = true
  · obtain ⟨k, hk⟩ := Option.isSome_iff_exists.mp (isSome_of_knock hwant)
    rw [hk] at hknock
    cases hc1 : c.1 <;> cases hd1 : d.1 <;> simp [hc1, hd1] at hknock ⊢
  · have hc1 : c.1 = false := Bool.eq_false_iff.mpr fun ht => hwant ((mem_rungs hc).1 ht)
    have hd1 : d.1 = false := Bool.eq_false_iff.mpr fun ht => hwant ((mem_rungs hd).1 ht)
    rw [hc1, hd1]

theorem rungs_nodup (cfg : RulesetConfig) : (rungs cfg).Nodup := by
  unfold rungs
  cases cfg.knock.isSome <;> cases cfg.forwardAllowlistOnly <;> decide

theorem candidate_drops (cfg : RulesetConfig) {c : Bool × Bool} (h : c ∈ rungs cfg) :
    (candidate cfg c.1 c.2).Drops cfg where
  gate := by
    cases hgate : c.2 with
    | false => exact .inr rfl
    | true => exact .inl ((mem_rungs h).2 hgate).symm
  knock := by
    cases c.1 with
    | false => exact .inr rfl
    | true => exact .inl rfl
  rest := rfl

theorem gateState_reports (reason : String) (want got : Bool) : (gateState reason want got).Reports want got := by
  cases want <;> cases got <;> constructor <;> simp [gateState]

/-- The knock rules of a rung are rendered if the rung has them. -/
theorem rung_knock {c : Bool × Bool} (h : c ∈ rungs cfg) : (candidate cfg c.1 c.2).knock.isSome = c.1 := by
  rw [candidate_knock]
  cases hc : c.1 with
  | false => rfl
  | true => exact (mem_rungs h).1 hc

theorem Rebuilds.host_eq {end_ : Option (Bool × Bool) × κ} {r : Except String Applied} {w w' : World κ}
    (h : Rebuilds cfg w end_ r w') : w'.host = end_.2 := by
  cases end_ with
  | mk c k =>
    cases c with
    | none => exact congrArg World.host h.1
    | some c => exact congrArg World.host h.1

theorem Climbed.reported {r : Except String Applied} {w w' : World (κ × List Offer)} {k' : κ × List Offer}
    (h : Climbed H cfg entries (rungs cfg) end_ offers) (hend : Rebuilds cfg w (end_, k') r w') :
    Reported cfg r offers where
  once := by
    refine h.configs_prefix.sublist.nodup ?_
    exact (rungs_nodup cfg).map_on fun c hc d hd => candidate_inj hc hd
  ok := by
    intro a hr
    cases end_ with
    | none =>
      obtain ⟨-, e, he⟩ := hend
      rw [he] at hr
      cases hr
    | some c =>
      obtain ⟨-, reason, ha⟩ := hend
      obtain ⟨hmem, refused, hoffers, hrefused⟩ := h.of_some rfl
      rw [ha] at hr
      cases hr
      refine ⟨refused, candidate cfg c.1 c.2, hoffers, hrefused, candidate_drops cfg hmem,
        gateState_reports .., ?_⟩
      rw [rung_knock hmem]
      exact gateState_reports ..
  error := by
    intro e hr
    cases end_ with
    | some c =>
      obtain ⟨-, reason, ha⟩ := hend
      rw [ha] at hr
      cases hr
    | none =>
      obtain ⟨hrefused, hconfigs⟩ := h.of_none rfl
      -- The ladder has been climbed to its end, and the last rung is the plain table.
      have hplain : candidate cfg false false ∈ offers.map Offer.config := by
        rw [hconfigs]
        exact List.mem_map.mpr ⟨(false, false), plain_mem_rungs cfg, rfl⟩
      obtain ⟨o, ho, hconfig⟩ := List.mem_map.mp hplain
      exact ⟨hrefused, o, ho, hconfig⟩

theorem Climbed.installed_eq (h : Climbed H cfg entries cs end_ offers) :
    installed offers = end_.map fun c => candidate cfg c.1 c.2 := by
  unfold installed
  cases end_ with
  | none =>
    rw [List.find?_eq_none.mpr fun o ho => by simp [(h.of_none rfl).1 o ho]]
    rfl
  | some c =>
    obtain ⟨-, refused, rfl, hrefused⟩ := h.of_some rfl
    rw [List.find?_append, List.find?_eq_none.mpr fun o ho => by simp [hrefused o ho]]
    rfl

/-- Whatever the backend answers, a rebuild says what it did: at most one ruleset was
accepted, the last one offered, and it is the one reported. Where a predicate decides what
the backend accepts, it is the first of the rulesets in the order of preference. -/
theorem applyRuleset_reports (H : Host κ) (cfg : RulesetConfig) (entries : List Entry) (w : World κ) :
    let out := applyRuleset H.recorded cfg entries w.recorded
    applyRuleset H cfg entries w = (out.1, out.2.unrecorded) ∧
      Reported cfg out.1 out.2.host.2 ∧
      ∀ accepts, (∀ c k, (H.apply c entries k).1.isOk = accepts c) →
        installed out.2.host.2 = (preferences cfg).find? accepts := by
  dsimp only
  have hladder := applyRuleset_ladder (H := H.recorded) cfg entries w.recorded
  obtain ⟨offers, hlog, hclimbed⟩ : ∃ offers,
      (ladder H.recorded cfg entries (w.host, [])).2.2 = [] ++ offers ∧
        Climbed H cfg entries (rungs cfg) (ladder H.recorded cfg entries (w.host, [])).1 offers :=
    climb_recorded (rungs cfg) w.host []
  have hoffers : (applyRuleset H.recorded cfg entries w.recorded).2.host.2 = offers := by
    rw [Rebuilds.host_eq hladder]
    exact hlog
  refine ⟨tryCandidates_unrecorded w.recorded, ?_, fun accepts haccepts => ?_⟩
  · rw [hoffers]
    exact hclimbed.reported hladder
  · rw [hoffers, hclimbed.installed_eq, preferences_eq, hclimbed.find_eq haccepts]

/-! ## Errors without the token -/

/-- The text is in no error of the result. -/
def Hides (secret : String) : Except String Applied → Prop
  | .ok a => ∀ e, a.gate = .rejected e ∨ a.knock = .rejected e → ¬Text.Occurs secret e
  | .error e => ¬Text.Occurs secret e

theorem digitChar_ne : ∀ n < 16, Nat.digitChar n ≠ '<' ∧ Nat.digitChar n ≠ '>' := by decide

/-- An error is rid of every occurrence of the token. -/
theorem redact_hides {knock : SshKnock} (hknock : cfg.sshKnock = some knock) (e : String) :
    ¬Text.Occurs (Text.toHex knock.token.toList) (redact cfg e) := by
  unfold redact
  rw [hknock]
  have hopen : '<' ∉ (Text.toHex knock.token.toList).toList := by
    intro h
    obtain ⟨n, hn, hchar⟩ := Text.digit_of_mem_toHex h
    exact (digitChar_ne n hn).1 hchar.symm
  have hclose : '>' ∉ (Text.toHex knock.token.toList).toList := by
    intro h
    obtain ⟨n, hn, hchar⟩ := Text.digit_of_mem_toHex h
    exact (digitChar_ne n hn).2 hchar.symm
  have hnew : ¬(Text.toHex knock.token.toList).toList <:+: ['<', 't', 'o', 'k', 'e', 'n'] := by
    intro h
    have hlen := h.length_le
    simp at hlen
  have htext : "<token>" = String.ofList ('<' :: ['t', 'o', 'k', 'e', 'n'] ++ ['>']) := rfl
  rw [htext]
  exact Text.not_occurs_replaceAll hopen hclose hnew

/-- The empty reason of a rejection that had no error before it. -/
theorem empty_hides (knock : SshKnock) : ¬Text.Occurs (Text.toHex knock.token.toList) "" := by
  intro h
  have hlen := h.length_le
  simp at hlen

theorem gateState_rejected {reason e : String} {want got : Bool} (h : gateState reason want got = .rejected e) :
    e = reason := by
  cases want <;> cases got <;> cases h
  rfl

theorem tryCandidates_hides {knock : SshKnock} (hknock : cfg.sshKnock = some knock) {firstErr : Option String}
    {w : World κ} (hfirst : ∀ e ∈ firstErr, ¬Text.Occurs (Text.toHex knock.token.toList) e) :
    Act.wp (tryCandidates H cfg entries cs tried firstErr)
      (fun r _ => Hides (Text.toHex knock.token.toList) r) w := by
  have hreason : ¬Text.Occurs (Text.toHex knock.token.toList) (firstErr.getD "") := by
    cases firstErr with
    | none => exact empty_hides knock
    | some e => exact hfirst e rfl
  induction cs generalizing tried firstErr w with
  | nil => exact hreason
  | cons cand rest ih =>
    by_cases hcand : cand ∈ tried
    · rw [tryCandidates_tried hcand]
      exact ih hfirst hreason
    · cases happly : H.apply (candidate cfg cand.1 cand.2) entries w.host with
      | mk r k =>
        unfold Act.wp
        cases r with
        | ok _ =>
          rw [tryCandidates_accepted hcand happly]
          intro e he
          cases he with
          | inl hgate => exact gateState_rejected hgate ▸ hreason
          | inr hgate => exact gateState_rejected hgate ▸ hreason
        | error e =>
          rw [tryCandidates_refused hcand happly]
          split
          · exact redact_hides hknock e
          -- What is kept is the first error, with the token taken out.
          · have hkept : ¬Text.Occurs (Text.toHex knock.token.toList) (firstErr.getD (redact cfg e)) := by
              cases firstErr with
              | none => exact redact_hides hknock e
              | some first => exact hfirst first rfl
            exact ih (by rintro _ ⟨⟩; exact hkept) hkept

/-- Whatever errors the backend answers with, and wherever they have the token in them, no
error that a rebuild passes on has it. -/
theorem applyRuleset_hides_token (H : Host κ) (cfg : RulesetConfig) (entries : List Entry) (w : World κ)
    (knock : SshKnock) (hknock : cfg.sshKnock = some knock) :
    Act.wp (applyRuleset H cfg entries) (fun r _ => Hides (Text.toHex knock.token.toList) r) w := by
  unfold applyRuleset
  exact tryCandidates_hides hknock (by simp)

/-- A backend that knows no knock rules and repeats the line in error. -/
def Host.echoing : Host Unit where
  apply c _ k :=
    match c.knock with
    | some knock => (.error ("@th,64,128 0x" ++ Text.toHex knock.token.toList ++ Text.toHex knock.token.toList), k)
    | none => (.ok (), k)
  add _ k := (.ok (), k)
  remove _ k := (.ok (), k)
  list k := (.ok [], k)
  save _ k := (.ok (), k)

/-- A token that is one byte over and over. -/
def periodicKnock : SshKnock := ⟨40000, Vector.replicate 16 1⟩

def periodicWorld : World Unit :=
  ⟨State.default, ⟨false, false⟩, (), ⟨22, true, some periodicKnock, false, [], []⟩⟩

theorem echoing_hides_token :
    let out := applyRuleset .echoing periodicWorld.accepted [] periodicWorld
    out.1 = .ok ⟨.off, .rejected "@th,64,128 0x<token><token>"⟩ ∧
      Hides (Text.toHex periodicKnock.token.toList) out.1 :=
  ⟨by decide +kernel,
    applyRuleset_hides_token .echoing periodicWorld.accepted [] periodicWorld periodicKnock rfl⟩

end Ipgate
