-- SUMMARY: The limiter of calls per address, and that its evictions are not seen in its answers.
import Mathlib.Data.List.AList
import Ipgate.Lib.FixedWindow
import Ipgate.Lib.Ip

/-!
# Rate limiting per address

Each address has a window with a count of its calls. When the table has grown large, the windows that
are over are taken out of it, whosever call it is. An address whose window was taken out gets a new one
with its next call, which would have replaced the old one in any case.
-/

namespace Ipgate.Limit

open Net

/-- A reading of the monotonic clock, in nanoseconds. -/
abbrev Instant := ℕ

/-- Zero if `start` is later. -/
def durationSince (now start : Instant) : ℕ := now - start

theorem durationSince_lt {now start window : ℕ} (h : 0 < window) :
    durationSince now start < window ↔ now < start + window := by
  change now - start < window ↔ _
  omega

/-- The start of an address's window, and the calls counted in it. -/
abbrev Table := AList fun _ : IpAddr => Instant × UInt32

def Table.retain (m : Table) (keep : Instant × UInt32 → Bool) : Table where
  entries := m.entries.filter fun e => keep e.2
  nodupKeys := m.nodupKeys.sublist List.filter_sublist

structure RateLimiter where
  max : UInt32
  window : ℕ
  inner : Table

namespace RateLimiter

def new (maxPerWindow : UInt32) (window : ℕ) : RateLimiter := ⟨maxPerWindow, window, ∅⟩

/-- A table that has grown large loses the windows that are over. -/
def sweep (l : RateLimiter) (now : Instant) : Table :=
  if l.inner.entries.length > 10000 then
    l.inner.retain fun e => decide (durationSince now e.1 < l.window)
  else l.inner

/-- Count the call in the table that `evict` leaves. A maximum of 0 means no limit. -/
def allowAfter (evict : RateLimiter → Instant → Table) (l : RateLimiter) (ip : IpAddr) (now : Instant) :
    Bool × RateLimiter :=
  if l.max = 0 then (true, l)
  else
    let m := evict l now
    let e := (m.lookup ip).getD (now, 0)
    let e := if durationSince now e.1 ≥ l.window then (now, 0) else e
    let e := (e.1, e.2 + 1)
    (decide (e.2 ≤ l.max), { l with inner := m.insert ip e })

def allow : RateLimiter → IpAddr → Instant → Bool × RateLimiter := allowAfter sweep

/-- The limiter that never takes a window out. -/
def allowKeeping : RateLimiter → IpAddr → Instant → Bool × RateLimiter := allowAfter fun l _ => l.inner

end RateLimiter

open RateLimiter

section Runs

variable (step : RateLimiter → IpAddr → Instant → Bool × RateLimiter)

/-- The limiter after the calls. -/
def after (l : RateLimiter) (calls : List (IpAddr × Instant)) : RateLimiter :=
  calls.foldl (fun l c => (step l c.1 c.2).2) l

/-- The answers to the calls, one after the other. -/
def answers (l : RateLimiter) : List (IpAddr × Instant) → List Bool
  | [] => []
  | c :: rest => (step l c.1 c.2).1 :: answers (step l c.1 c.2).2 rest

end Runs

/-- One of the windows of `ip` starts at `s`: at some moment of the run the table says so. -/
def StartsWindow (l : RateLimiter) (calls : List (IpAddr × Instant)) (ip : IpAddr) (s : Instant) : Prop :=
  ∃ pre post count, calls = pre ++ post ∧ (after allow l pre).inner.lookup ip = some (s, count)

/-! ## The table follows a counter for each address -/

variable {l : RateLimiter} {m : Table} {c : IpAddr → Option FixedWindow.Window} {ip j : IpAddr} {window n : ℕ}
variable {now now' s : Instant} {count : UInt32} {keep : Instant × UInt32 → Bool}
variable {calls : List (IpAddr × Instant)} {evict : RateLimiter → Instant → Table}

theorem mem_lookup_retain {e : Instant × UInt32} :
    (m.retain keep).lookup ip = some e ↔ m.lookup ip = some e ∧ keep e = true := by
  have hiff : ∀ m : Table, m.lookup ip = some e ↔ (⟨ip, e⟩ : Sigma fun _ : IpAddr => Instant × UInt32) ∈ m.entries :=
    fun m => AList.mem_lookup_iff
  rw [hiff, hiff]
  unfold Table.retain
  rw [List.mem_filter]

/-- What the table holds is counted as the counters count it, and what it has lost is over. -/
structure Follows (window now n : ℕ) (m : Table) (c : IpAddr → Option FixedWindow.Window) : Prop where
  held : ∀ ip start count, m.lookup ip = some (start, count) → c ip = some ⟨start, count.toNat⟩
  lost : ∀ ip w, m.lookup ip = none → c ip = some w → w.start + window ≤ now
  few : ∀ ip w, c ip = some w → w.count ≤ n

theorem follows_new : Follows window now 0 ∅ fun _ => none where
  held _ _ _ h := by cases h
  lost _ _ _ h := by cases h
  few _ _ h := by cases h

theorem Follows.later (h : Follows window now n m c) (hle : now ≤ now') : Follows window now' n m c :=
  ⟨h.held, fun ip w hlost hw => Nat.le_trans (h.lost ip w hlost hw) hle, h.few⟩

/-- Taking out windows that are over is not noticed. -/
theorem Follows.retain (h : Follows window now n m c) (hover : ∀ e, keep e = false → e.1 + window ≤ now) :
    Follows window now n (m.retain keep) c := by
  refine ⟨fun ip start count hkept => ?_, fun ip w hlost hw => ?_, h.few⟩
  · exact h.held ip start count (mem_lookup_retain.mp hkept).1
  · cases hlookup : m.lookup ip with
    | none => exact h.lost ip w hlookup hw
    | some e =>
      have hkeep : keep e = false := by
        rw [← Bool.not_eq_true]
        intro hkeep
        rw [mem_lookup_retain.mpr ⟨hlookup, hkeep⟩] at hlost
        cases hlost
      have hheld := h.held ip e.1 e.2 hlookup
      obtain rfl := Option.some.inj (hw.symm.trans hheld)
      exact hover e hkeep

theorem Follows.sweep (h : Follows l.window now n l.inner c) (hwindow : 0 < l.window) :
    Follows l.window now n (l.sweep now) c := by
  unfold RateLimiter.sweep
  split
  · refine h.retain fun e hover => ?_
    have hge : ¬ durationSince now e.1 < l.window := of_decide_eq_false hover
    exact Nat.not_lt.mp (mt (durationSince_lt hwindow).mpr hge)
  · exact h

/-- What the address's entry is when its call has been counted. -/
def counted (window : ℕ) (now : Instant) (e : Option (Instant × UInt32)) : Instant × UInt32 :=
  let e := e.getD (now, 0)
  let e := if durationSince now e.1 ≥ window then (now, 0) else e
  (e.1, e.2 + 1)

theorem allowAfter_eq (h : l.max ≠ 0) : allowAfter evict l ip now =
    (decide ((counted l.window now ((evict l now).lookup ip)).2 ≤ l.max),
      { l with inner := (evict l now).insert ip (counted l.window now ((evict l now).lookup ip)) }) := if_neg h

/-- Counting a call does what the address's counter does, and the count does not overflow. -/
theorem Follows.counted (h : Follows window now n m c) (hwindow : 0 < window) (hn : n + 1 < 4294967296) (ip : IpAddr) :
    FixedWindow.tick window now (c ip) =
      ⟨(counted window now (m.lookup ip)).1, (counted window now (m.lookup ip)).2.toNat⟩ := by
  have hone : ((0 : UInt32) + 1).toNat = 1 := rfl
  cases hlookup : m.lookup ip with
  | none =>
    have hcounted : Limit.counted window now none = (now, 0 + 1) := by
      unfold Limit.counted
      dsimp only [Option.getD_none]
      split <;> rfl
    rw [hcounted, hone]
    cases hc : c ip with
    | none => rfl
    | some w => exact if_pos (h.lost ip w hlookup hc)
  | some e =>
    obtain ⟨start, count⟩ := e
    have hheld := h.held ip start count hlookup
    have hfew := h.few ip _ hheld
    rw [hheld]
    unfold Limit.counted FixedWindow.tick
    dsimp only [Option.getD_some] at hfew ⊢
    by_cases hover : start + window ≤ now
    · have hge : durationSince now start ≥ window :=
        Nat.not_lt.mp (mt (durationSince_lt hwindow).mp (Nat.not_lt.mpr hover))
      rw [if_pos hover, if_pos hge]
      rfl
    · have hlt : durationSince now start < window := (durationSince_lt hwindow).mpr (Nat.not_le.mp hover)
      have hsum : (count + 1).toNat = count.toNat + 1 := by
        rw [UInt32.toNat_add, UInt32.toNat_one]
        exact Nat.mod_eq_of_lt (by omega)
      rw [if_neg hover, if_neg (Nat.not_le.mpr hlt), hsum]

theorem Follows.insert (h : Follows window now n m c) (hwindow : 0 < window) (hn : n + 1 < 4294967296) (ip : IpAddr) :
    Follows window now (n + 1) (m.insert ip (Limit.counted window now (m.lookup ip)))
      (FixedWindow.call window c (ip, now)) := by
  have hcounted := h.counted hwindow hn ip
  refine ⟨fun j start count hj => ?_, fun j w hlost hw => ?_, fun j w hw => ?_⟩
  · by_cases heq : j = ip
    · subst heq
      rw [AList.lookup_insert] at hj
      rw [FixedWindow.call_self, hcounted, Option.some.inj hj]
    · rw [AList.lookup_insert_ne heq] at hj
      rw [FixedWindow.call_of_ne heq]
      exact h.held j start count hj
  · obtain ⟨hne, hlookup⟩ := (AList.lookup_insert_eq_none).mp hlost
    rw [FixedWindow.call_of_ne hne] at hw
    exact h.lost j w hlookup hw
  · by_cases heq : j = ip
    · subst heq
      rw [FixedWindow.call_self] at hw
      obtain rfl := Option.some.inj hw
      exact FixedWindow.count_tick_le fun w hw => h.few j w hw
    · rw [FixedWindow.call_of_ne heq] at hw
      exact Nat.le_succ_of_le (h.few j w hw)

/-- Taking out what `evict` takes out is not noticed. -/
def Unnoticed (evict : RateLimiter → Instant → Table) : Prop :=
  ∀ l now n c, 0 < l.window → Follows l.window now n l.inner c → Follows l.window now n (evict l now) c

theorem unnoticed_sweep : Unnoticed RateLimiter.sweep := fun _ _ _ _ hwindow h => h.sweep hwindow

theorem unnoticed_nothing : Unnoticed fun l _ => l.inner := fun _ _ _ _ _ h => h

/-- One call: the answer is the counter's, and the table still follows the counters. -/
theorem Follows.allowAfter (h : Follows l.window now n l.inner c) (hevict : Unnoticed evict) (hmax : l.max ≠ 0)
    (hwindow : 0 < l.window) (hn : n + 1 < 4294967296) (ip : IpAddr) :
    ∃ m, allowAfter evict l ip now =
        (decide ((FixedWindow.tick l.window now (c ip)).count ≤ l.max.toNat), { l with inner := m }) ∧
      Follows l.window now (n + 1) m (FixedWindow.call l.window c (ip, now)) := by
  have hthen := hevict l now n c hwindow h
  have hcounted := hthen.counted hwindow hn ip
  refine ⟨_, ?_, hthen.insert hwindow hn ip⟩
  rw [hcounted, allowAfter_eq hmax]
  rfl

/-- The limiter answers as the counters do, and its table follows them. -/
theorem Follows.run (h : Follows l.window now n l.inner c) (hevict : Unnoticed evict) (hmax : l.max ≠ 0)
    (hwindow : 0 < l.window) (horder : FixedWindow.InOrder calls) (hnow : ∀ x ∈ calls, now ≤ x.2)
    (hn : n + calls.length < 4294967296) :
    answers (RateLimiter.allowAfter evict) l calls = FixedWindow.answers l.max.toNat l.window c calls ∧
      ∃ now' n', Follows l.window now' n' (after (RateLimiter.allowAfter evict) l calls).inner
        (FixedWindow.after l.window c calls) := by
  induction calls generalizing l c n now with
  | nil => exact ⟨rfl, now, n, h⟩
  | cons x rest ih =>
    obtain ⟨ip, t⟩ := x
    obtain ⟨hfirst, hrest⟩ := List.pairwise_cons.mp horder
    rw [List.length_cons] at hn
    have hlater := h.later (hnow _ (List.mem_cons_self ..))
    obtain ⟨m, hstep, hthen⟩ := hlater.allowAfter hevict hmax hwindow (by omega) ip
    obtain ⟨hanswers, hafter⟩ := ih (l := { l with inner := m }) hthen hmax hwindow hrest hfirst (by omega)
    unfold answers after
    rw [List.foldl_cons, hstep, FixedWindow.answers_cons]
    dsimp only
    rw [hanswers]
    exact ⟨rfl, hafter⟩

/-! ## The answers of a run -/

section New

variable {max : UInt32}

theorem answers_new (hevict : Unnoticed evict) (hmax : max ≠ 0) (hwindow : 0 < window)
    (horder : FixedWindow.InOrder calls) (hfew : calls.length < 4294967296) :
    answers (allowAfter evict) (new max window) calls = FixedWindow.answers max.toNat window (fun _ => none) calls := by
  have hnew : Follows (new max window).window 0 0 (new max window).inner fun _ => none := follows_new
  exact (hnew.run hevict hmax hwindow horder (fun _ _ => Nat.zero_le _) (by omega)).1

/-- With a maximum of 0 every call is allowed. -/
theorem answers_unlimited (hmax : l.max = 0) : answers (allowAfter evict) l calls = calls.map fun _ => true := by
  induction calls with
  | nil => rfl
  | cons x rest ih =>
    have hstep : allowAfter evict l x.1 x.2 = (true, l) := if_pos hmax
    unfold answers
    rw [hstep, List.map_cons]
    exact congrArg _ ih

theorem after_unlimited (hmax : l.max = 0) : after (allowAfter evict) l calls = l := by
  induction calls with
  | nil => rfl
  | cons x rest ih =>
    have hstep : allowAfter evict l x.1 x.2 = (true, l) := if_pos hmax
    unfold after at ih ⊢
    rw [List.foldl_cons, hstep]
    exact ih

/-- Without a limit there are no windows. -/
theorem max_ne_zero (h : StartsWindow (new max window) calls ip s) : max ≠ 0 := by
  intro hmax
  obtain ⟨pre, post, count, -, hlookup⟩ := h
  have hsame : after allow (new max window) pre = new max window := after_unlimited hmax
  rw [hsame] at hlookup
  cases hlookup

/-- In a window the first calls are allowed, up to the maximum, and no others. -/
theorem answersTo_window (hwindow : 0 < window) (horder : FixedWindow.InOrder calls) (hfew : calls.length < 4294967296)
    (hstarts : StartsWindow (new max window) calls ip s) :
    ∃ n, FixedWindow.answersTo (FixedWindow.within ip s (s + window)) calls (answers allow (new max window) calls) =
      FixedWindow.granted max.toNat n := by
  have hmax := max_ne_zero hstarts
  obtain ⟨pre, post, count, rfl, hlookup⟩ := hstarts
  have hnew : Follows (new max window).window 0 0 (new max window).inner fun _ => none := follows_new
  have hpre : FixedWindow.InOrder pre := horder.sublist (List.sublist_append_left ..)
  have hshort : 0 + pre.length < 4294967296 := by
    rw [List.length_append] at hfew
    omega
  obtain ⟨-, now, n, hfollows⟩ := hnew.run unnoticed_sweep hmax hwindow hpre (fun _ _ => Nat.zero_le _) hshort
  have hanswers : answers allow (new max window) (pre ++ post) = _ :=
    answers_new unnoticed_sweep hmax hwindow horder hfew
  rw [hanswers]
  exact FixedWindow.answersTo_window horder hwindow (hfollows.held ip s count hlookup)

/-- Alone, an address gets the answers it gets among others. -/
theorem answersTo_source (hevict : Unnoticed evict) (hwindow : 0 < window) (horder : FixedWindow.InOrder calls)
    (hfew : calls.length < 4294967296) :
    FixedWindow.answersTo (fun x => decide (x.1 = ip)) calls (answers (allowAfter evict) (new max window) calls) =
      answers (allowAfter evict) (new max window) (calls.filter fun x => decide (x.1 = ip)) := by
  have hsub : (calls.filter fun x => decide (x.1 = ip)).Sublist calls := List.filter_sublist
  by_cases hmax : max = 0
  · have hunlimited (calls : List (IpAddr × Instant)) :
        answers (allowAfter evict) (new max window) calls = calls.map fun _ => true := answers_unlimited hmax
    rw [hunlimited, hunlimited]
    exact FixedWindow.answersTo_map
  · rw [answers_new hevict hmax hwindow horder hfew,
      answers_new hevict hmax hwindow (horder.sublist hsub) (Nat.lt_of_le_of_lt hsub.length_le hfew)]
    exact FixedWindow.answersTo_source rfl

/-! ### The table of a run -/

theorem allow_conf (c : IpAddr × Instant) : (allow l c.1 c.2).2.max = l.max ∧ (allow l c.1 c.2).2.window = l.window := by
  unfold allow allowAfter
  split <;> exact ⟨rfl, rfl⟩

theorem after_snoc (c : IpAddr × Instant) : after allow l (calls ++ [c]) = (allow (after allow l calls) c.1 c.2).2 :=
  List.foldl_append

theorem after_conf : (after allow l calls).max = l.max ∧ (after allow l calls).window = l.window := by
  induction calls using List.reverseRecOn with
  | nil => exact ⟨rfl, rfl⟩
  | append_singleton calls c ih =>
    rw [after_snoc]
    exact ⟨(allow_conf c).1.trans ih.1, (allow_conf c).2.trans ih.2⟩

theorem max_after (hmax : max ≠ 0) : (after allow (new max window) calls).max ≠ 0 := by
  rw [after_conf.1]
  exact hmax

theorem inner_allow (hmax : l.max ≠ 0) : (allow l ip now).2.inner =
    (l.sweep now).insert ip (counted l.window now ((l.sweep now).lookup ip)) :=
  congrArg (fun r => r.2.inner) (allowAfter_eq hmax)

/-- A call that is counted lies in the window it is counted in. -/
theorem mem_window (hmax : l.max ≠ 0) (hwindow : 0 < l.window) :
    ∃ start count, (allow l ip now).2.inner.lookup ip = some (start, count) ∧ now < start + l.window := by
  rw [inner_allow hmax, AList.lookup_insert]
  refine ⟨_, _, rfl, (durationSince_lt hwindow).mp ?_⟩
  split
  · exact (durationSince_lt hwindow).mpr (Nat.lt_add_of_pos_right hwindow)
  · next hnot => exact Nat.not_le.mp hnot

/-- The last call lies in a window of its address. -/
theorem startsWindow_last (hmax : max ≠ 0) (hwindow : 0 < window) :
    ∃ s, StartsWindow (new max window) (calls ++ [(ip, now)]) ip s ∧ now < s + window := by
  have hwindow' : (after allow (new max window) calls).window = window := after_conf.2
  have hpos : 0 < (after allow (new max window) calls).window := hwindow'.symm ▸ hwindow
  obtain ⟨s, count, hlookup, hin⟩ := mem_window (max_after hmax) hpos
  refine ⟨s, ⟨calls ++ [(ip, now)], [], count, (List.append_nil _).symm, ?_⟩, hwindow' ▸ hin⟩
  rw [after_snoc]
  exact hlookup

theorem length_of_keys {keys : List IpAddr} (h : m.keys = keys.reverse) : m.entries.length = keys.length := by
  have hlength : m.keys.length = m.entries.length := List.length_map _
  rw [← hlength, h, List.length_reverse]

/-- A table that has not grown large has an entry for each address. -/
theorem keys_after (hmax : max ≠ 0) (hnodup : (calls.map Prod.fst).Nodup) (hfew : calls.length ≤ 10001) :
    (after allow (new max window) calls).inner.keys = (calls.map Prod.fst).reverse := by
  induction calls using List.reverseRecOn with
  | nil => rfl
  | append_singleton calls c ih =>
    rw [List.length_append, List.length_singleton] at hfew
    rw [List.map_append, List.nodup_append] at hnodup
    have hkeys := ih hnodup.1 (by omega)
    have hlength := length_of_keys hkeys
    rw [List.length_map] at hlength
    have hsmall : (after allow (new max window) calls).sweep c.2 = (after allow (new max window) calls).inner :=
      if_neg (by omega)
    have hnew : c.1 ∉ (after allow (new max window) calls).inner.keys := by
      rw [hkeys, List.mem_reverse]
      exact fun hold => hnodup.2.2 _ hold _ (List.mem_singleton_self _) rfl
    rw [after_snoc, inner_allow (max_after hmax), hsmall, AList.keys_insert, List.erase_of_not_mem hnew, hkeys,
      List.map_append, List.reverse_append]
    rfl

/-! ### Evictions -/

/-- Whether other addresses fill the table does not matter to the answers. -/
theorem evictions_unseen (max : UInt32) (window : ℕ) (hwindow : 0 < window) (calls : List (IpAddr × Instant))
    (horder : FixedWindow.InOrder calls) (hfew : calls.length < 4294967296) :
    answers allow (new max window) calls = answers allowKeeping (new max window) calls ∧
    (∀ ip s, StartsWindow (new max window) calls ip s →
      let given := FixedWindow.answersTo (FixedWindow.within ip s (s + window)) calls
        (answers allow (new max window) calls)
      given.count true ≤ max.toNat ∧ ∀ a ∈ given.take max.toNat, a = true) ∧
    (max = 0 → ∀ a ∈ answers allow (new max window) calls, a = true) ∧
    ∀ ip, FixedWindow.answersTo (fun x => decide (x.1 = ip)) calls (answers allow (new max window) calls) =
      answers allow (new max window) (calls.filter fun x => decide (x.1 = ip)) := by
  refine ⟨?_, fun ip s hstarts => ?_, fun hmax a ha => ?_,
    fun ip => answersTo_source unnoticed_sweep hwindow horder hfew⟩
  · unfold allow allowKeeping
    by_cases hmax : max = 0
    · rw [answers_unlimited hmax, answers_unlimited hmax]
    · rw [answers_new unnoticed_sweep hmax hwindow horder hfew, answers_new unnoticed_nothing hmax hwindow horder hfew]
  · obtain ⟨n, hn⟩ := answersTo_window hwindow horder hfew hstarts
    dsimp only
    rw [hn]
    exact ⟨FixedWindow.count_granted_le .., fun a ha => FixedWindow.mem_take_granted ha⟩
  · have hall : answers allow (new max window) calls = calls.map fun _ => true := answers_unlimited hmax
    rw [hall] at ha
    obtain ⟨x, -, rfl⟩ := List.mem_map.mp ha
    rfl

def home : IpAddr := .v4 0xcb007108

/-- Calls of one address, and of ten thousand others. -/
def crowd : List (IpAddr × Instant) := (home, 0) :: (List.range 10000).map fun i => (.v6 (BitVec.ofNat 128 i), 0)

theorem nodup_crowd : (crowd.map Prod.fst).Nodup := by
  unfold crowd
  rw [List.map_cons, List.map_map, List.nodup_cons]
  refine ⟨?_, List.Nodup.map_on (fun i hi j hj hsame => ?_) List.nodup_range⟩
  · rw [List.mem_map]
    rintro ⟨i, -, hsame⟩
    cases hsame
  · rw [List.mem_range] at hi hj
    have hvalue := congrArg BitVec.toNat (IpAddr.v6.inj hsame)
    rw [BitVec.toNat_ofNat, BitVec.toNat_ofNat, Nat.mod_eq_of_lt (by omega), Nat.mod_eq_of_lt (by omega)] at hvalue
    exact hvalue

theorem time_crowd {x : IpAddr × Instant} (hx : x ∈ crowd) : x.2 = 0 := by
  rcases List.mem_cons.mp hx with rfl | hx
  · rfl
  · obtain ⟨i, -, rfl⟩ := List.mem_map.mp hx
    rfl

/-- The address calls again in its window, and then when it is over. -/
def crowded : List (IpAddr × Instant) := crowd ++ [(home, 3)] ++ [(home, 60)]

theorem inOrder_crowded : FixedWindow.InOrder crowded := by
  unfold FixedWindow.InOrder crowded
  rw [List.append_assoc, List.pairwise_append]
  refine ⟨?_, by decide, fun x hx y _ => (time_crowd hx).symm ▸ Nat.zero_le _⟩
  exact List.pairwise_of_forall_mem_list fun x hx y hy => by rw [time_crowd hx, time_crowd hy]

theorem home_crowded : (crowded.filter fun x => decide (x.1 = home)) = [(home, 0), (home, 3), (home, 60)] := by
  have hothers : ((List.range 10000).map fun i => (IpAddr.v6 (BitVec.ofNat 128 i), (0 : Instant))).filter
      (fun x => decide (x.1 = home)) = [] := by
    rw [List.filter_eq_nil_iff]
    intro x hx hhome
    obtain ⟨i, -, rfl⟩ := List.mem_map.mp hx
    cases of_decide_eq_true hhome
  unfold crowded crowd
  rw [List.filter_append, List.filter_append, List.filter_cons_of_pos (by decide), hothers]
  decide

/-- The table grows large, and the call after the window is over sweeps it. -/
theorem evictions_unseen_crowded :
    10000 < (after allow (new 1 60) crowd).inner.entries.length ∧
    answers allow (new 1 60) crowded = answers allowKeeping (new 1 60) crowded ∧
    (∃ s, StartsWindow (new 1 60) crowded home s ∧ 0 < s ∧
      (FixedWindow.answersTo (FixedWindow.within home s (s + 60)) crowded
        (answers allow (new 1 60) crowded)).count true ≤ 1) ∧
    (∀ a ∈ answers allow (new 0 60) crowded, a = true) ∧
    FixedWindow.answersTo (fun x => decide (x.1 = home)) crowded (answers allow (new 1 60) crowded) =
      [true, false, true] := by
  have hfew : crowded.length < 4294967296 := by simp [crowded, crowd]
  obtain ⟨hsame, hwindows, -, halone⟩ := evictions_unseen 1 60 (by decide) crowded inOrder_crowded hfew
  obtain ⟨-, -, hunlimited, -⟩ := evictions_unseen 0 60 (by decide) crowded inOrder_crowded hfew
  refine ⟨?_, hsame, ?_, hunlimited rfl, ?_⟩
  · rw [length_of_keys (keys_after (by decide) nodup_crowd (by simp [crowd]))]
    simp [crowd]
  · have hlast : ∃ s, StartsWindow (new 1 60) crowded home s ∧ 60 < s + 60 :=
      startsWindow_last (by decide) (by decide)
    obtain ⟨s, hstarts, hin⟩ := hlast
    exact ⟨s, hstarts, Nat.pos_of_lt_add_left hin, (hwindows home s hstarts).1⟩
  · rw [halone home, home_crowded]
    decide +kernel

end New

end Ipgate.Limit
