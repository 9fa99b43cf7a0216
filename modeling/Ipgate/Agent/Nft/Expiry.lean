-- SUMMARY: Which entries are in the kernel after a run and until when, and what the packets of one source mean for another.
import Ipgate.Agent.Nft.Clock

/-!
# Elements after the agent

An element carries its timeout into the kernel. What was put in last for a target counts, and it
goes within a second of the expiry of its entry, whatever becomes of the agent. A packet changes
nothing for the packets of any other source.
-/

namespace Ipgate.Clock

open Net Nft

/-! ## The last entry for a target -/

/-- At the time the event puts an entry for its target into the kernel. -/
def Gives (e : Entry) (ev : Event × DateTime) : Prop :=
  match ev.1 with
  | .load _ entries => (activeFor entries ev.2 e.target).getLast? = some e
  | .add e' => e' = e
  | _ => False

/-- The event leaves the target alone. -/
def Spares (n : IpNet) (ev : Event × DateTime) : Prop :=
  match ev.1 with
  | .load _ _ => False
  | .add e => e.target ≠ n
  | .remove target => target ≠ n
  | .packet _ => True

/-- The entry is the last that an event has put in for its target, at the time. -/
def Given (es : List (Event × DateTime)) (e : Entry) (time : DateTime) : Prop :=
  Lts.Since (fun ev => Gives e ev ∧ ev.2 = time) (Spares e.target) es

/-- When an entry that is put in at the time leaves by itself. -/
def deadline (e : Entry) (time : DateTime) : Option DateTime := (timeoutLeft time e).map fun secs => time + nanos secs

/-- What was put in last for the target leaves by itself then. -/
def Latest (es : List (Event × DateTime)) (n : IpNet) (d : Option DateTime) : Prop :=
  ∃ e time, e.target = n ∧ Given es e time ∧ d = deadline e time

section Latest

variable {now time : DateTime} {es : List (Event × DateTime)} {ev : Event × DateTime} {cfg : RulesetConfig}
variable {entries : List Entry} {e : Entry} {n : IpNet} {d : Option DateTime}

/-- An event that spares the target and puts nothing in for it changes nothing. -/
theorem latest_spared (hgives : ∀ e, e.target = n → ¬Gives e ev) (hspares : Spares n ev) :
    Latest (es ++ [ev]) n d ↔ Latest es n d := by
  refine exists_congr fun e => exists_congr fun time => and_congr_right fun htarget => and_congr_left fun _ => ?_
  unfold Given
  rw [Lts.since_concat, htarget, and_iff_right hspares]
  exact or_iff_right fun h => hgives e htarget h.1

/-- What comes after an event that does not spare the target is what that event puts in. -/
theorem latest_given (hspares : ¬Spares n ev) :
    Latest (es ++ [ev]) n d ↔ ∃ e, e.target = n ∧ Gives e ev ∧ d = deadline e ev.2 := by
  constructor
  · rintro ⟨e, time, rfl, hgiven, hd⟩
    rcases Lts.since_concat.mp hgiven with ⟨hgives, rfl⟩ | ⟨hspared, -⟩
    · exact ⟨e, rfl, hgives, hd⟩
    · exact (hspares hspared).elim
  · rintro ⟨e, htarget, hgives, hd⟩
    exact ⟨e, ev.2, htarget, Lts.since_concat.mpr (.inl ⟨hgives, rfl⟩), hd⟩

theorem latest_load : Latest (es ++ [(.load cfg entries, now)]) n d ↔
    ∃ e, (activeFor entries now n).getLast? = some e ∧ d = deadline e now := by
  rw [latest_given id]
  refine exists_congr fun e => ?_
  unfold Gives
  constructor
  · rintro ⟨rfl, hlast, hd⟩
    exact ⟨hlast, hd⟩
  · rintro ⟨hlast, hd⟩
    have htarget := (mem_activeFor.mp (List.mem_of_getLast? hlast)).2.2
    exact ⟨htarget, htarget.symm ▸ hlast, hd⟩

theorem latest_add : Latest (es ++ [(.add e, now)]) e.target d ↔ d = deadline e now := by
  have hspares : ¬Spares e.target (.add e, now) := fun h => h rfl
  rw [latest_given hspares]
  constructor
  · rintro ⟨e', -, rfl, hd⟩
    exact hd
  · exact fun hd => ⟨e, rfl, rfl, hd⟩

theorem not_latest_remove : ¬Latest (es ++ [(.remove n, now)]) n d := by
  have hspares : ¬Spares n (.remove n, now) := fun h => h rfl
  rw [latest_given hspares]
  rintro ⟨e, -, hgives, -⟩
  exact hgives

end Latest

section Elements

variable {k : Kernel} {start : DateTime} {es : List (Event × DateTime)} {cfg : RulesetConfig}
variable {entries : List Entry} {n : IpNet} {d : Option DateTime}

/-- The element of a target is that of the last entry that was put in for it. -/
theorem mem_allow_iff (hrun : Lts.run step (.load cfg entries start) es = some k) :
    ⟨allowSet (netFamily n), n, d⟩ ∈ k.running.items ↔ Latest ((.load cfg entries, start) :: es) n d := by
  have hload (cfg : RulesetConfig) (entries : List Entry) (now : DateTime) (past : List (Event × DateTime)) :
      ⟨allowSet (netFamily n), n, d⟩ ∈ (Kernel.load cfg entries now).running.items ↔
        Latest (past ++ [(.load cfg entries, now)]) n d := by
    rw [mem_load, latest_load]
    exact and_iff_right rfl
  induction es using List.reverseRecOn generalizing k with
  | nil =>
    cases hrun
    exact hload cfg entries start []
  | append_singleton es ev ih =>
    obtain ⟨k₀, hrun₀, hlast⟩ := Lts.run_append_iff.mp hrun
    obtain ⟨k₁, hstep, hnil⟩ := Lts.run_cons_iff.mp hlast
    cases hnil
    obtain ⟨-, rfl⟩ := step_eq hstep
    have hbefore : ⟨allowSet (netFamily n), n, d⟩ ∈ k₀.running.items ↔ Latest ((.load cfg entries, start) :: es) n d :=
      ih hrun₀
    obtain ⟨ev, now⟩ := ev
    rw [← List.cons_append]
    cases ev with
    | load cfg' entries' => exact hload cfg' entries' now _
    | add e =>
      rw [mem_add]
      by_cases htarget : e.target = n
      · subst htarget
        rw [latest_add]
        constructor
        · rintro (heq | ⟨-, hother⟩)
          · exact (Item.mk.inj heq).2.2
          · exact (hother ⟨rfl, rfl⟩).elim
        · rintro rfl
          exact .inl rfl
      · have hitem : ⟨allowSet (netFamily n), n, d⟩ ≠
            (⟨allowSet (netFamily e.target), e.target, deadline e now⟩ : Item SetName) :=
          fun heq => htarget (Item.mk.inj heq).2.1.symm
        have hgives (e' : Entry) (he' : e'.target = n) : ¬Gives e' (.add e, now) :=
          fun heq => htarget ((congrArg Entry.target heq).trans he')
        rw [latest_spared hgives htarget, ← hbefore]
        exact (or_iff_right hitem).trans (and_iff_left fun hkey => htarget hkey.2)
    | remove target =>
      rw [mem_remove]
      by_cases htarget : target = n
      · subst htarget
        exact iff_of_false (fun h => h.2 ⟨rfl, rfl⟩) not_latest_remove
      · have hgives (e : Entry) (_ : e.target = n) : ¬Gives e (.remove target, now) := id
        rw [latest_spared hgives htarget, ← hbefore]
        exact and_iff_left fun hkey => htarget hkey.2
    | packet p =>
      have hgives (e : Entry) (_ : e.target = n) : ¬Gives e (.packet p, now) := id
      rw [latest_spared hgives trivial, ← hbefore]
      by_cases hknock : Knocks k₀.cfg p
      · rw [mem_knock hknock]
        constructor
        · rintro (heq | hold)
          · exact (allowSet_ne_knockSet _ _ (Item.mk.inj heq).1).elim
          · exact hold.1
        · exact fun hold => .inr ⟨hold, fun hkey => allowSet_ne_knockSet _ _ hkey.1.symm⟩
      · rw [effect_rest hknock]

end Elements

/-! ## Deadlines -/

section Deadlines

variable {e : Entry} {now time t : Int} {secs : Nat} {set : SetName} {n : IpNet}

/-- The timeout reaches to within a second of the expiry. -/
theorem timeoutLeft_reaches (h : timeoutLeft now e = some secs) (ht : e.expiresAt = some t) :
    t < now + nanos secs + nanos 1 := by
  unfold timeoutLeft at h
  rw [ht] at h
  obtain rfl := Option.some.inj h
  unfold nanos
  rw [Int.toNat_of_nonneg (by omega)]
  unfold numSeconds
  cases Int.le_total 0 (t - now) with
  | inl hpos =>
    rw [Int.tdiv_eq_ediv_of_nonneg hpos]
    omega
  | inr hneg => omega

/-- A deadline is not past the expiry, but for the second that every timeout lasts. -/
theorem deadline_le (h : deadline e time = some now) (ht : e.expiresAt = some t) : now ≤ max t (time + nanos 1) := by
  obtain ⟨secs, hsecs, rfl⟩ := Option.map_eq_some_iff.mp h
  obtain ⟨t', ht', -, hlasts⟩ := timeoutLeft_lasts hsecs
  obtain rfl := Option.some.inj (ht.symm.trans ht')
  have hle : (secs : Int) * 1000000000 ≤ max 1000000000 (t - time) := hlasts
  unfold nanos
  omega

theorem lt_deadline (h : deadline e time = some now) (ht : e.expiresAt = some t) : t < now + nanos 1 := by
  obtain ⟨secs, hsecs, rfl⟩ := Option.map_eq_some_iff.mp h
  exact timeoutLeft_reaches hsecs ht

theorem deadline_eq_none : deadline e time = none ↔ e.expiresAt = none := by
  unfold deadline timeoutLeft
  simp

theorem alive_of_early (h : ∀ t, e.expiresAt = some t → now + nanos 1 ≤ t) :
    Item.alive ⟨set, n, deadline e time⟩ now = true := by
  unfold Item.alive
  cases hd : deadline e time with
  | none => rfl
  | some d =>
    cases ht : e.expiresAt with
    | none =>
      rw [deadline_eq_none.mpr ht] at hd
      cases hd
    | some t =>
      have hlt := lt_deadline hd ht
      have hearly := h t ht
      exact decide_eq_true (by omega)

theorem early_of_alive (h : Item.alive ⟨set, n, deadline e time⟩ now = true) (ht : e.expiresAt = some t) :
    now < max t (time + nanos 1) := by
  unfold Item.alive at h
  cases hd : deadline e time with
  | none =>
    rw [deadline_eq_none.mp hd] at ht
    cases ht
  | some d =>
    rw [hd] at h
    exact Int.lt_of_lt_of_le (of_decide_eq_true h) (deadline_le hd ht)

end Deadlines

/-! ## Expiry without the agent -/

/-- An address is admitted only by the last entry that was put in for a target, which it lies in
and which has not expired, but for a second after it was put in; and such an entry admits it until
a second before its expiry. No event has to take the entry out. -/
theorem admitted_until_expiry (cfg : RulesetConfig) (entries : List Entry) (start : DateTime)
    (es : List (Event × DateTime)) (k : Kernel) (hrun : Lts.run step (.load cfg entries start) es = some k)
    (now : DateTime) (a : IpAddr) :
    (Admitted k now a → ∃ e time, Given ((.load cfg entries, start) :: es) e time ∧ e.target.Contains a ∧
      ∀ t, e.expiresAt = some t → now < max t (time + nanos 1)) ∧
    ((∃ e time, Given ((.load cfg entries, start) :: es) e time ∧ e.target.Contains a ∧
      ∀ t, e.expiresAt = some t → now + nanos 1 ≤ t) → Admitted k now a) := by
  constructor
  · rintro ⟨⟨set, n, d⟩, hi, hset, halive, hin⟩
    obtain rfl : set = allowSet (netFamily n) := hset
    obtain ⟨e, time, rfl, hgiven, rfl⟩ := (mem_allow_iff hrun).mp hi
    exact ⟨e, time, hgiven, hin, fun t ht => early_of_alive halive ht⟩
  · rintro ⟨e, time, hgiven, hin, hearly⟩
    exact ⟨_, (mem_allow_iff hrun).mpr ⟨e, time, rfl, hgiven, rfl⟩, rfl, alive_of_early hearly, hin⟩

/-- An entry of ninety seconds. -/
def shortEntry : Entry := ⟨⟨0⟩, .v4 (Cidr.host 16909060), "", some (nanos 90), 0, ⟨0⟩⟩

/-- Its renewal for half a minute more. -/
def renewedEntry : Entry := { shortEntry with expiresAt := some (nanos 120) }

/-- An entry that does not expire. -/
def guestEntry : Entry := ⟨⟨1⟩, .v4 (Cidr.host 84281096), "", none, 0, ⟨0⟩⟩

def renewal : List (Event × DateTime) :=
  [(.add renewedEntry, nanos 30), (.add guestEntry, nanos 40), (.remove guestEntry.target, nanos 50),
    (.packet knockPacket, nanos 60)]

/-- The renewal alone is what has been given. -/
theorem given_renewal {e : Entry} {time : DateTime} :
    Given ((.load closedConfig [shortEntry], 0) :: renewal) e time ↔ e = renewedEntry ∧ time = nanos 30 := by
  have hsplit : (.load closedConfig [shortEntry], 0) :: renewal =
      [] ++ [((.load closedConfig [shortEntry], 0) : Event × DateTime)] ++ [(.add renewedEntry, nanos 30)] ++
        [(.add guestEntry, nanos 40)] ++ [(.remove guestEntry.target, nanos 50)] ++ [(.packet knockPacket, nanos 60)] := rfl
  have htarget : guestEntry.target ≠ renewedEntry.target := by decide
  unfold Given
  rw [hsplit]
  simp only [Lts.since_concat, Lts.not_since_nil]
  constructor
  · rintro (⟨hnone, -⟩ | ⟨-, ⟨hnone, -⟩ | ⟨hremoved, hbefore⟩⟩)
    · cases hnone
    · cases hnone
    rcases hbefore with ⟨hguest, -⟩ | ⟨-, ⟨hgives, htime⟩ | ⟨hreplaced, ⟨hloaded, -⟩ | hnone⟩⟩
    · exact (hremoved (congrArg Entry.target hguest)).elim
    · exact ⟨hgives.symm, htime.symm⟩
    · obtain ⟨hmem, -, -⟩ := mem_activeFor.mp (List.mem_of_getLast? hloaded)
      exact (hreplaced (congrArg Entry.target (List.mem_singleton.mp hmem)).symm).elim
    · exact hnone.2.elim
  · rintro ⟨rfl, rfl⟩
    exact .inr ⟨trivial, .inr ⟨htarget, .inr ⟨htarget, .inl ⟨rfl, rfl⟩⟩⟩⟩

/-- A minute and a half later the host of the renewed entry is admitted, and a minute after the
renewal nobody is. -/
theorem admitted_after_renewal : ∃ k, Lts.run step (.load closedConfig [shortEntry] 0) renewal = some k ∧
    Admitted k (nanos 100) (.v4 16909060) ∧ ∀ a, ¬Admitted k (nanos 120) a := by
  have hgiven {a : IpAddr} {now : DateTime} :=
    admitted_until_expiry closedConfig [shortEntry] 0 renewal _ rfl now a
  refine ⟨_, rfl, hgiven.2 ⟨renewedEntry, nanos 30, given_renewal.mpr ⟨rfl, rfl⟩, Cidr.host_contains.mpr rfl, ?_⟩, ?_⟩
  · intro t ht
    obtain rfl := Option.some.inj ht
    decide
  · intro a hadmitted
    obtain ⟨e, time, hgives, -, hearly⟩ := hgiven.1 hadmitted
    obtain ⟨rfl, rfl⟩ := given_renewal.mp hgives
    exact absurd (hearly (nanos 120) rfl) (by decide)

/-! ## Other sources -/

/-- What a source brings about: its own packets, and all that is no packet. -/
def visible (a : IpAddr) (ev : Event × DateTime) : Bool :=
  match ev.1 with
  | .packet p => p.saddr = a
  | _ => true

/-- The items that count for the packets of a source. -/
def Counts (a : IpAddr) (i : Item SetName) : Prop := i.set = allowSet (netFamily i.net) ∨ i.net = .host a

/-- The two kernels are the same for the packets of a source. -/
structure SameFor (a : IpAddr) (k k' : Kernel) : Prop where
  left : WellPlaced k
  right : WellPlaced k'
  cfg : k.cfg = k'.cfg
  items : ∀ i, Counts a i → (i ∈ k.running.items ↔ i ∈ k'.running.items)

section Sources

variable {k k' : Kernel} {a : IpAddr} {now : DateTime} {ev : Event × DateTime} {p : Packet} {i : Item SetName}

theorem SameFor.symm (h : SameFor a k k') : SameFor a k' k :=
  ⟨h.right, h.left, h.cfg.symm, fun i hi => (h.items i hi).symm⟩

theorem sameFor_refl (h : WellPlaced k) : SameFor a k k := ⟨h, h, rfl, fun _ _ => Iff.rfl⟩

/-- A knock of another source changes no item that counts. -/
theorem counts_packet (hother : p.saddr ≠ a) (hi : Counts a i) :
    i ∈ (effect k now (.packet p)).running.items ↔ i ∈ k.running.items := by
  by_cases hknock : Knocks k.cfg p
  · have hne : ¬(knockSet p.family = i.set ∧ IpNet.host p.saddr = i.net) := by
      rintro ⟨hset, hnet⟩
      rcases hi with hallow | hhost
      · exact allowSet_ne_knockSet _ _ (hallow.symm.trans hset.symm)
      · exact hother (IpNet.host_contains.mp ((hnet.trans hhost).symm ▸ IpNet.host_contains.mpr rfl))
    rw [mem_knock hknock]
    constructor
    · rintro (rfl | hold)
      · exact (hne ⟨rfl, rfl⟩).elim
      · exact hold.1
    · exact fun hold => .inr ⟨hold, hne⟩
  · rw [effect_rest hknock]

theorem SameFor.hidden (h : SameFor a k k') (hhidden : visible a ev = false) : SameFor a (effect k ev.2 ev.1) k' := by
  obtain ⟨ev, now⟩ := ev
  cases ev with
  | packet p =>
    have hother : p.saddr ≠ a := of_decide_eq_false hhidden
    exact ⟨h.left.effect now _, h.right, h.cfg, fun i hi => (counts_packet hother hi).trans (h.items i hi)⟩
  | _ => cases hhidden

theorem SameFor.effect (h : SameFor a k k') (now : DateTime) (ev : Event) :
    SameFor a (effect k now ev) (effect k' now ev) := by
  refine ⟨h.left.effect now ev, h.right.effect now ev, ?_, fun i hi => ?_⟩
  · cases ev with
    | load => rfl
    | _ => exact h.cfg
  · have hold := h.items i hi
    cases ev with
    | load => rfl
    | add e => rw [mem_add, mem_add, hold]
    | remove target => rw [mem_remove, mem_remove, hold]
    | packet p =>
      by_cases hknock : Knocks k.cfg p
      · rw [mem_knock hknock, mem_knock (h.cfg ▸ hknock), hold]
      · rw [effect_rest hknock, effect_rest (h.cfg ▸ hknock), hold]

theorem SameFor.inKnockSet (h : SameFor a k k') (hin : InKnockSet k now a) : InKnockSet k' now a := by
  obtain ⟨i, hi, hset, halive, hcontains⟩ := hin
  exact ⟨i, (h.items i (.inr (h.left.knock_net hi hset hcontains))).mp hi, hset, halive, hcontains⟩

theorem SameFor.admitted (h : SameFor a k k') (hin : Admitted k now a) : Admitted k' now a := by
  obtain ⟨i, hi, hset, halive, hcontains⟩ := hin
  exact ⟨i, (h.items i (.inl hset)).mp hi, hset, halive, hcontains⟩

theorem SameFor.verdict (h : SameFor p.saddr k k') : k.verdict p now = k'.verdict p now := by
  have hiff : k.verdict p now = .accept ↔ k'.verdict p now = .accept := by
    rw [h.left.verdict_iff, h.right.verdict_iff, h.cfg,
      Iff.intro (SameFor.inKnockSet h) (SameFor.inKnockSet h.symm),
      Iff.intro (SameFor.admitted h) (SameFor.admitted h.symm)]
  cases hk : k.verdict p now <;> cases hk' : k'.verdict p now <;> simp [hk, hk'] at hiff ⊢

/-- Whatever other sources send, when and how often, knocks included: two runs with the same loads
and commands at the same times and the same packets of one source have the same verdict for it. -/
theorem other_sources_do_not_interfere (cfg : RulesetConfig) (entries : List Entry) (start : DateTime)
    (es es' : List (Event × DateTime)) (k k' : Kernel)
    (hrun : Lts.run step (.load cfg entries start) es = some k)
    (hrun' : Lts.run step (.load cfg entries start) es' = some k') (p : Packet)
    (hsame : es.filter (visible p.saddr) = es'.filter (visible p.saddr)) (now : DateTime) :
    k.verdict p now = k'.verdict p now := by
  have hrel : SameFor p.saddr k k' := by
    refine Lts.run_unwinding (SameFor p.saddr) (visible p.saddr) ?_ ?_ ?_
      (sameFor_refl (wellPlaced_load cfg entries start)) hrun hrun' hsame
    · rintro s s' t e h hhidden hstep
      obtain ⟨-, rfl⟩ := step_eq hstep
      exact h.hidden hhidden
    · rintro s s' t e h hhidden hstep
      obtain ⟨-, rfl⟩ := step_eq hstep
      exact (h.symm.hidden hhidden).symm
    · rintro s s' t t' e h - hstep hstep'
      obtain ⟨-, rfl⟩ := step_eq hstep
      obtain ⟨-, rfl⟩ := step_eq hstep'
      exact h.effect e.2 e.1
  exact hrel.verdict

/-- The knock of another host does not open SSH. -/
theorem knock_of_other_host :
    (effect (.load closedConfig [] 0) 0 (.packet knockPacket)).verdict { sshPacket with saddr := .v4 7 } 1 =
      (Kernel.load closedConfig [] 0).verdict { sshPacket with saddr := .v4 7 } 1 :=
  other_sources_do_not_interfere closedConfig [] 0 [(.packet knockPacket, 0)] [] _ _ rfl rfl
    { sshPacket with saddr := .v4 7 } rfl 1

end Sources

end Ipgate.Clock
