-- SUMMARY: parse.rs: reading the elements of a set from the JSON that nft prints, and what the reader makes of any value.
import Ipgate.Lib.IpText
import Ipgate.Lib.Json
import Ipgate.Proto.Basic

/-!
# Reading the kernel's sets

`nft -j list set` prints an element as an address, as a prefix, or as either of them with a timeout.
`meant` says what an element stands for, with integers of any size; the reader narrows a length to
eight bits and adds a number of seconds to a time.
-/

namespace Ipgate.Parse

open Net Json

/-! ## Outcomes -/

inductive ParseError where
  | notJson
  | noNftables
  | badAddress (s : String)
  | noAddr
  | noLen
  | badLen (len : UInt8)
  | noVal
  | unknownVal (v : Value)
  | unknownElem (v : Value)
  | unclosed

/-- The text of an error; the display form of values and the words of the address crate come from outside. -/
def ParseError.text (display : Value → String) (prefixLenError : String) : ParseError → String
  | .notJson => "nft -j 输出非合法 JSON"
  | .noNftables => "缺少 nftables 数组"
  | .badAddress s => "非法地址: " ++ s
  | .noAddr => "prefix.addr 缺失"
  | .noLen => "prefix.len 缺失"
  | .badLen _ => prefixLenError
  | .noVal => "elem.val 缺失"
  | .unknownVal v => "无法识别的元素值: " ++ display v
  | .unknownElem v => "无法识别的 nft 元素: " ++ display v
  | .unclosed => "nft 文本输出缺少 elements 闭合括号"

/-- A result, an error, or a panic of the thread. -/
inductive Outcome (α : Type) where
  | ok (a : α)
  | err (e : ParseError)
  | panic

namespace Outcome

protected def bind {α β : Type} (x : Outcome α) (f : α → Outcome β) : Outcome β :=
  match x with
  | .ok a => f a
  | .err e => .err e
  | .panic => .panic

instance : Monad Outcome where
  pure := .ok
  bind := Outcome.bind

instance : LawfulMonad Outcome :=
  LawfulMonad.mk' _
    (fun x => by
      cases x with
      | ok a => rfl
      | err e => rfl
      | panic => rfl)
    (fun _ _ => rfl)
    (fun x _ _ => by
      cases x with
      | ok a => rfl
      | err e => rfl
      | panic => rfl)

theorem ok_bind {α β : Type} (a : α) (f : α → Outcome β) : (Outcome.ok a >>= f) = f a := rfl

theorem map_ok {α β : Type} (a : α) (f : α → β) : (f <$> Outcome.ok a) = .ok (f a) := rfl

/-- What follows a result does not make a panic. -/
theorem bind_ok_ne_panic {α β : Type} (x : Outcome α) (f : α → β) :
    (x >>= fun a => pure (f a)) ≠ .panic ↔ x ≠ .panic := by
  cases x with
  | ok a => exact ⟨fun _ => by rintro ⟨⟩, fun _ => by rintro ⟨⟩⟩
  | err e => exact ⟨fun _ => by rintro ⟨⟩, fun _ => by rintro ⟨⟩⟩
  | panic => exact ⟨fun h => (h rfl).elim, fun h => (h rfl).elim⟩

/-- A value that has to be there. -/
def ofOption {α : Type} (e : ParseError) : Option α → Outcome α
  | some a => .ok a
  | none => .err e

theorem ofOption_some {α : Type} {e : ParseError} (a : α) : ofOption e (some a) = .ok a := rfl

/-- The outcome is the value, or an error where there is none. -/
def Matches {α : Type} (x : Outcome α) (m : Option α) : Prop :=
  match m with
  | some a => x = .ok a
  | none => ∃ e, x = .err e

theorem ofOption_matches {α : Type} {e : ParseError} (m : Option α) : (ofOption e m).Matches m := by
  cases m with
  | none => exact ⟨e, rfl⟩
  | some a => rfl

theorem Matches.bind {α β : Type} {x : Outcome α} {m : Option α} {f : α → Outcome β} {g : α → Option β}
    (h : x.Matches m) (hf : ∀ a, m = some a → (f a).Matches (g a)) : (x >>= f).Matches (m.bind g) := by
  cases m with
  | none =>
    obtain ⟨e, rfl⟩ := h
    exact ⟨e, rfl⟩
  | some a =>
    obtain rfl : x = .ok a := h
    exact hf a rfl

theorem Matches.map {α β : Type} {x : Outcome α} {m : Option α} {f : α → β} (h : x.Matches m) :
    (x >>= fun a => pure (f a)).Matches (m.map f) := by
  rw [Option.map_eq_bind]
  exact h.bind fun _ _ => rfl

end Outcome

/-! ## Times -/

def NANOS : Int := 1000000000

/-- The first and the last time that the chrono crate can represent, in the years -262143 and 262142. -/
def MIN_UTC : DateTime := -8334601228800 * NANOS

def MAX_UTC : DateTime := 8210266876799 * NANOS + 999999999

/-- The time some seconds later. -/
def later (now : DateTime) (secs : Int) : DateTime := now + secs * NANOS

/-- The seconds of the longest duration, of `i64::MAX` milliseconds. -/
def MAX_SECONDS : Int := 9223372036854775

/-- The seconds are a duration, and the sum is a time. -/
def InRange (now : DateTime) (secs : Int) : Prop :=
  -MAX_SECONDS ≤ secs ∧ secs ≤ MAX_SECONDS ∧ MIN_UTC ≤ later now secs ∧ later now secs ≤ MAX_UTC

instance (now : DateTime) (secs : Int) : Decidable (InRange now secs) := inferInstanceAs (Decidable (_ ∧ _))

/-- `now + Duration::seconds(secs)`. -/
def addSeconds (now : DateTime) (secs : Int) : Outcome DateTime :=
  if InRange now secs then .ok (later now secs) else .panic

/-! ## The reader -/

/-- `IpNet::new`. -/
def ipNet (ip : IpAddr) (len : Nat) : Option IpNet :=
  match ip with
  | .v4 a => if h : len ≤ 32 then some (.v4 ⟨a, len, h⟩) else none
  | .v6 a => if h : len ≤ 128 then some (.v6 ⟨a, len, h⟩) else none

/-- The network of one address. -/
def hostNet : IpAddr → IpNet
  | .v4 a => .v4 (Cidr.host a)
  | .v6 a => .v6 (Cidr.host a)

def hostToNet (s : String) : Outcome IpNet := do
  let ip ← .ofOption (.badAddress s) (parseIpAddr s.toList)
  return hostNet ip

def parsePrefix (p : Value) : Outcome IpNet := do
  let addr ← .ofOption .noAddr ((p.get "addr").bind Value.asStr)
  let len ← .ofOption .noLen ((p.get "len").bind Value.asU64)
  let len := len.toUInt8
  let ip ← .ofOption (.badAddress addr) (parseIpAddr addr.toList)
  .ofOption (.badLen len) (ipNet ip len.toNat)

def parseVal (v : Value) : Outcome IpNet :=
  match v with
  | .string s => hostToNet s
  | .object m =>
    match Value.lookup m "prefix" with
    | some p => parsePrefix p
    | none => .err (.unknownVal v)
  | _ => .err (.unknownVal v)

/-- The seconds that are left are made a time. -/
def expiry (now : DateTime) : Option Int → Outcome (Option DateTime)
  | some secs => do
    let t ← addSeconds now secs
    return some t
  | none => .ok none

def parseElem (now : DateTime) (el : Value) : Outcome KernelElement :=
  match el with
  | .string s => do
    let target ← hostToNet s
    return ⟨target, none⟩
  | .object m =>
    match Value.lookup m "prefix" with
    | some p => do
      let target ← parsePrefix p
      return ⟨target, none⟩
    | none =>
      match Value.lookup m "elem" with
      | some inner => do
        let val ← .ofOption .noVal (inner.get "val")
        let target ← parseVal val
        let expiresAt ← expiry now ((inner.get "expires").bind Value.asI64)
        return ⟨target, expiresAt⟩
      | none => .err (.unknownElem el)
  | _ => .err (.unknownElem el)

def parseElems (now : DateTime) : List Value → Outcome (List KernelElement)
  | [] => .ok []
  | el :: rest => do
    let e ← parseElem now el
    let es ← parseElems now rest
    return e :: es

/-- The elements of an item, if it is a set that has some. -/
def itemElems (item : Value) : Option (List Value) :=
  ((item.get "set").bind fun set => set.get "elem").bind Value.asArray

/-- Other items are passed over. -/
def parseItems (now : DateTime) : List Value → Outcome (List KernelElement)
  | [] => .ok []
  | item :: rest =>
    match itemElems item with
    | some elems => do
      let out ← parseElems now elems
      let more ← parseItems now rest
      return out ++ more
    | none => parseItems now rest

def parseDocument (now : DateTime) (v : Value) : Outcome (List KernelElement) := do
  let arr ← .ofOption .noNftables ((v.get "nftables").bind Value.asArray)
  parseItems now arr

/-- Read what `nft -j` has printed, given what the JSON crate makes of a text. -/
def parseSetElements (fromStr : String → Option Value) (json : String) (now : DateTime) :
    Outcome (List KernelElement) := do
  let v ← .ofOption .notJson (fromStr json)
  parseDocument now v

/-! ## What an element stands for -/

/-- A network with the length as it is stated. -/
def statedNet (ip : IpAddr) (len : Int) : Option IpNet := if 0 ≤ len then ipNet ip len.toNat else none

def meantPrefix (p : Value) : Option IpNet :=
  ((p.get "addr").bind Value.asStr).bind fun addr =>
    ((p.get "len").bind Value.integer).bind fun len => (parseIpAddr addr.toList).bind fun ip => statedNet ip len

def meantHost (s : String) : Option IpNet := (parseIpAddr s.toList).map hostNet

def meantVal (v : Value) : Option IpNet :=
  match v with
  | .string s => meantHost s
  | .object m => (Value.lookup m "prefix").bind meantPrefix
  | _ => none

/-- The network of an element, and the seconds that are left of its time. -/
def meant (el : Value) : Option (IpNet × Option Int) :=
  match el with
  | .string s => (meantHost s).map fun net => (net, none)
  | .object m =>
    match Value.lookup m "prefix" with
    | some p => (meantPrefix p).map fun net => (net, none)
    | none =>
      (Value.lookup m "elem").bind fun inner =>
        ((inner.get "val").bind meantVal).map fun net => (net, (inner.get "expires").bind Value.integer)
  | _ => none

/-- The element of the kernel that is meant. -/
def element (now : DateTime) (m : IpNet × Option Int) : KernelElement := ⟨m.1, m.2.map (later now)⟩

/-- What is under the `elem` key of all sets of the document, in order. -/
def elements (v : Value) : List Value :=
  (((v.get "nftables").bind Value.asArray).getD []).flatMap fun item => (itemElems item).getD []

/-! ## Narrowed integers -/

/-- The lengths that reading a prefix narrows to eight bits. -/
def castsPrefix (p : Value) : List UInt64 :=
  match (p.get "addr").bind Value.asStr, (p.get "len").bind Value.asU64 with
  | some _, some len => [len]
  | _, _ => []

def castsVal (v : Value) : List UInt64 :=
  match v with
  | .object m => ((Value.lookup m "prefix").map castsPrefix).getD []
  | _ => []

def castsElem (el : Value) : List UInt64 :=
  match el with
  | .object m =>
    match Value.lookup m "prefix" with
    | some p => castsPrefix p
    | none => (((Value.lookup m "elem").bind fun inner => inner.get "val").map castsVal).getD []
  | _ => []

/-- The lengths narrowed until the first element that is not read. -/
def casts (now : DateTime) : List Value → List UInt64
  | [] => []
  | el :: rest =>
    castsElem el ++
      match parseElem now el with
      | .ok _ => casts now rest
      | _ => []

/-- The document is refused, or read as what it stands for; on the way no length is narrowed to another
one, and there is no panic. -/
structure Faithful (now : DateTime) (v : Value) : Prop where
  narrowed : ∀ n ∈ casts now (elements v), n.toNat < 256
  returns : parseDocument now v ≠ .panic
  reads : ∀ es, parseDocument now v = .ok es →
    (elements v).map (fun el => (meant el).map (element now)) = es.map some

/-! ## When a document is read faithfully -/

/-- The lengths of the element fit into eight bits, and its expiry is a time, unless its seconds do not fit
into 64 bits. -/
def Fits (now : DateTime) (el : Value) : Prop :=
  (∀ n ∈ castsElem el, n.toNat < 256) ∧
    ∀ net secs, meant el = some (net, some secs) → secs < 9223372036854775808 → InRange now secs

/-- Seconds that are left fit into 64 bits. -/
def Kept (el : Value) : Prop := ∀ net secs, meant el = some (net, some secs) → secs < 9223372036854775808

/-- The elements up to the first that stands for nothing. -/
def reached : List Value → List Value
  | [] => []
  | el :: rest => el :: if (meant el).isSome then reached rest else []

section Spec

variable {now : DateTime} {el v p : Value} {els : List Value} {net : IpNet}

theorem hostToNet_matches (s : String) : (hostToNet s).Matches (meantHost s) :=
  (Outcome.ofOption_matches _).map

/-- A length that fits into eight bits is the stated one. -/
theorem statedNet_of_lt (ip : IpAddr) {n : UInt64} (h : n.toNat < 256) :
    statedNet ip (n.toNat : Int) = ipNet ip n.toUInt8.toNat := by
  have hsame : n.toUInt8.toNat = n.toNat := by
    rw [UInt64.toNat_toUInt8]
    exact Nat.mod_eq_of_lt h
  unfold statedNet
  rw [if_pos (Int.natCast_nonneg _), hsame, Int.toNat_natCast]

theorem parsePrefix_matches (h : ∀ n ∈ castsPrefix p, n.toNat < 256) : (parsePrefix p).Matches (meantPrefix p) := by
  unfold castsPrefix at h
  refine (Outcome.ofOption_matches _).bind fun addr haddr => ?_
  rw [haddr] at h
  cases hlen : p.get "len" with
  | none => exact ⟨_, rfl⟩
  | some l =>
    rw [hlen] at h
    obtain ⟨hpos, hneg⟩ := l.integer_of_asU64
    cases hu : l.asU64 with
    -- a length that is no `u64` is negative or not whole, and states no network either
    | none =>
      have hnone : (l.integer.bind fun len => (parseIpAddr addr.toList).bind fun ip => statedNet ip len) = none := by
        cases hz : l.integer with
        | none => rfl
        | some z =>
          have hlt := hneg hu z hz
          cases parseIpAddr addr.toList with
          | none => rfl
          | some ip => exact if_neg (by omega)
      rw [Option.bind_some, Option.bind_some, hnone, hu]
      exact ⟨_, rfl⟩
    | some n =>
      have hlt : n.toNat < 256 := h n (by simp [hu])
      rw [Option.bind_some, Option.bind_some, hpos n hu, hu, Outcome.ofOption_some, Outcome.ok_bind,
        Option.bind_some]
      refine (Outcome.ofOption_matches (parseIpAddr addr.toList)).bind fun ip _ => ?_
      rw [statedNet_of_lt ip hlt]
      exact Outcome.ofOption_matches _

theorem parseVal_matches (h : ∀ n ∈ castsVal v, n.toNat < 256) : (parseVal v).Matches (meantVal v) := by
  cases v with
  | string s => exact hostToNet_matches s
  | object m =>
    unfold parseVal meantVal
    unfold castsVal at h
    dsimp only at h ⊢
    cases hpre : Value.lookup m "prefix" with
    | none => exact ⟨_, rfl⟩
    | some p =>
      rw [hpre] at h
      exact parsePrefix_matches h
  | null => exact ⟨_, rfl⟩
  | bool b => exact ⟨_, rfl⟩
  | number n => exact ⟨_, rfl⟩
  | array items => exact ⟨_, rfl⟩

/-- What reading an element comes to when its lengths fit: its time is kept or dropped, or is no time. -/
def ReadAs (now : DateTime) (x : Outcome KernelElement) (m : Option (IpNet × Option Int)) : Prop :=
  match m with
  | some (net, some secs) =>
    if secs < 9223372036854775808 then
      if InRange now secs then x = .ok ⟨net, some (later now secs)⟩ else x = .panic
    else x = .ok ⟨net, none⟩
  | some (net, none) => x = .ok ⟨net, none⟩
  | none => ∃ e, x = .err e

/-- An element without a time. -/
theorem readAs_net {x : Outcome IpNet} {m : Option IpNet} (h : x.Matches m) :
    ReadAs now (x >>= fun target => pure ⟨target, none⟩) (m.map fun net => (net, none)) := by
  cases m with
  | none =>
    obtain ⟨e, rfl⟩ := h
    exact ⟨e, rfl⟩
  | some net =>
    obtain rfl : x = .ok net := h
    rfl

theorem expiry_some (secs : Int) :
    expiry now (some secs) = if InRange now secs then .ok (some (later now secs)) else .panic := by
  show (addSeconds now secs >>= fun t => .ok (some t)) = _
  unfold addSeconds
  split
  · rfl
  · rfl

/-- An element with a time. -/
theorem readAs_timed {x : Outcome IpNet} {m : Option IpNet} (h : x.Matches m) (expires : Option Value) :
    ReadAs now (x >>= fun target => expiry now (expires.bind Value.asI64) >>= fun t => pure ⟨target, t⟩)
      (m.map fun net => (net, expires.bind Value.integer)) := by
  cases m with
  | none =>
    obtain ⟨e, rfl⟩ := h
    exact ⟨e, rfl⟩
  | some net =>
    obtain rfl : x = .ok net := h
    cases expires with
    | none => rfl
    | some e =>
      rw [Option.bind_some, Option.bind_some, e.asI64_eq, Option.map_some]
      cases hinteger : e.integer with
      | none => rfl
      | some secs =>
        unfold ReadAs
        rw [Option.filter_some]
        dsimp only
        -- from 2^63 on the number is no `i64`, and the element is read without a time
        by_cases hlt : secs < 9223372036854775808
        · rw [if_pos hlt, if_pos (decide_eq_true hlt)]
          rw [expiry_some]
          by_cases hrange : InRange now secs
          · rw [if_pos hrange, if_pos hrange]
            rfl
          · rw [if_neg hrange, if_neg hrange]
            rfl
        · rw [if_neg hlt, if_neg (by simpa using hlt)]
          rfl

theorem parseElem_readAs (now : DateTime) (h : ∀ n ∈ castsElem el, n.toNat < 256) :
    ReadAs now (parseElem now el) (meant el) := by
  cases el with
  | string s => exact readAs_net (hostToNet_matches s)
  | object m =>
    unfold parseElem meant
    unfold castsElem at h
    dsimp only at h ⊢
    cases hpre : Value.lookup m "prefix" with
    | some p =>
      rw [hpre] at h
      exact readAs_net (parsePrefix_matches h)
    | none =>
      rw [hpre] at h
      cases helem : Value.lookup m "elem" with
      | none => exact ⟨_, rfl⟩
      | some inner =>
        rw [helem] at h
        dsimp only at h ⊢
        rw [Option.bind_some] at h ⊢
        cases hval : inner.get "val" with
        | none => exact ⟨_, rfl⟩
        | some val =>
          rw [hval] at h
          exact readAs_timed (parseVal_matches h) _
  | null => exact ⟨_, rfl⟩
  | bool b => exact ⟨_, rfl⟩
  | number n => exact ⟨_, rfl⟩
  | array items => exact ⟨_, rfl⟩

/-- What is kept of an element: seconds that do not fit into 64 bits are dropped. -/
def kept (now : DateTime) (m : IpNet × Option Int) : KernelElement :=
  ⟨m.1, (m.2.filter fun secs => decide (secs < 9223372036854775808)).map (later now)⟩

theorem kept_some (secs : Int) :
    kept now (net, some secs) = ⟨net, if secs < 9223372036854775808 then some (later now secs) else none⟩ := by
  unfold kept
  rw [Option.filter_some]
  split
  · next hlt => rw [if_pos (by simpa using hlt), Option.map_some]
  · next hlt => rw [if_neg (by simpa using hlt), Option.map_none]

/-- Nothing is dropped when the seconds fit. -/
theorem element_eq_kept_iff (m : IpNet × Option Int) :
    element now m = kept now m ↔ ∀ secs, m.2 = some secs → secs < 9223372036854775808 := by
  obtain ⟨net, expires⟩ := m
  cases expires with
  | none => simp [element, kept]
  | some secs =>
    rw [kept_some]
    by_cases hlt : secs < 9223372036854775808
    · simp [element, hlt]
    · simp [element, hlt]

/-- The three ways in which an element is read whose lengths fit. -/
theorem parseElem_cases (now : DateTime) (h : ∀ n ∈ castsElem el, n.toNat < 256) :
    (meant el = none ∧ Fits now el ∧ ∃ e, parseElem now el = .err e) ∨
      (∃ m, meant el = some m ∧ Fits now el ∧ parseElem now el = .ok (kept now m)) ∨
        (¬ Fits now el ∧ parseElem now el = .panic) := by
  have hread := parseElem_readAs now h
  unfold ReadAs at hread
  cases hmeant : meant el with
  -- malformed: the reading ends here
  | none =>
    rw [hmeant] at hread
    refine .inl ⟨rfl, ⟨h, fun net secs hm => ?_⟩, hread⟩
    rw [hmeant] at hm
    cases hm
  | some m =>
    rw [hmeant] at hread
    obtain ⟨net, expires⟩ := m
    cases expires with
    | none =>
      refine .inr (.inl ⟨_, rfl, ⟨h, fun net' secs hm => ?_⟩, hread⟩)
      rw [hmeant] at hm
      cases hm
    | some secs =>
      dsimp only at hread
      by_cases hlt : secs < 9223372036854775808
      · rw [if_pos hlt] at hread
        by_cases hrange : InRange now secs
        · rw [if_pos hrange] at hread
          refine .inr (.inl ⟨_, rfl, ⟨h, fun net' secs' hm _ => ?_⟩, ?_⟩)
          · rw [hmeant] at hm
            cases hm
            exact hrange
          · rw [hread, kept_some, if_pos hlt]
        -- a time beyond what `chrono` has is the panic
        · rw [if_neg hrange] at hread
          exact .inr (.inr ⟨fun hfits => hrange (hfits.2 net secs hmeant hlt), hread⟩)
      -- no `i64`: the time is dropped, which is no panic
      · rw [if_neg hlt] at hread
        refine .inr (.inl ⟨_, rfl, ⟨h, fun net' secs' hm hlt' => ?_⟩, ?_⟩)
        · rw [hmeant] at hm
          cases hm
          exact (hlt hlt').elim
        · rw [hread, kept_some, if_neg hlt]

/-- No length is narrowed to another and there is no panic when what is reached fits. -/
theorem parseElems_safe_iff : ((∀ n ∈ casts now els, n.toNat < 256) ∧ parseElems now els ≠ .panic) ↔
    ∀ el ∈ reached els, Fits now el := by
  induction els with
  | nil => simp [casts, reached, parseElems]
  | cons el rest ih =>
    unfold casts reached parseElems
    by_cases hlen : ∀ n ∈ castsElem el, n.toNat < 256
    -- a malformed element ends the reading, so what stands behind it is not asked to fit
    · obtain ⟨hm, hfits, e, hp⟩ | ⟨m, hm, hfits, hp⟩ | ⟨hfits, hp⟩ := parseElem_cases now hlen
      · rw [hm, hp]
        constructor
        · rintro - el' hel'
          obtain rfl : el' = el := by simpa using hel'
          exact hfits
        · intro _
          refine ⟨by simpa using hlen, ?_⟩
          rintro ⟨⟩
      · rw [hm, hp]
        rw [Outcome.ok_bind, Outcome.bind_ok_ne_panic]
        simp only [List.mem_append, Option.isSome_some, if_true, List.forall_mem_cons, ← ih]
        constructor
        · rintro ⟨hcasts, hne⟩
          exact ⟨hfits, fun n hn => hcasts n (.inr hn), hne⟩
        · rintro ⟨-, hcasts, hne⟩
          exact ⟨fun n hn => hn.elim (hlen n) (hcasts n), hne⟩
      · rw [hp]
        constructor
        · rintro ⟨-, hne⟩
          exact (hne rfl).elim
        · intro hall
          exact (hfits (hall el List.mem_cons_self)).elim
    -- a length is narrowed already in the first element
    · constructor
      · rintro ⟨hcasts, -⟩
        exact (hlen fun n hn => hcasts n (List.mem_append_left _ hn)).elim
      · intro hall
        exact (hlen (hall el List.mem_cons_self).1).elim

/-- When what is reached fits, all elements are read, or one of them is refused. -/
theorem parseElems_fits (h : ∀ el ∈ reached els, Fits now el) :
    (∃ ms : List (IpNet × Option Int), els.map meant = ms.map some ∧ parseElems now els = .ok (ms.map (kept now))) ∨
      (∃ el ∈ els, meant el = none) ∧ ∃ e, parseElems now els = .err e := by
  induction els with
  | nil => exact .inl ⟨[], rfl, rfl⟩
  | cons el rest ih =>
    have hel : Fits now el := h el List.mem_cons_self
    unfold reached at h
    unfold parseElems
    obtain ⟨hm, -, e, hp⟩ | ⟨m, hm, -, hp⟩ | ⟨hfits, -⟩ := parseElem_cases now hel.1
    · rw [hp]
      exact .inr ⟨⟨el, List.mem_cons_self, hm⟩, e, rfl⟩
    · rw [hm] at h
      rw [hp]
      obtain ⟨ms, hms, hrest⟩ | ⟨⟨el', hel', hm'⟩, e, hrest⟩ := ih fun el' hel' => h el' (List.mem_cons_of_mem _ hel')
      · refine .inl ⟨m :: ms, ?_, ?_⟩
        · rw [List.map_cons, List.map_cons, hm, hms]
        · rw [hrest]
          rfl
      · refine .inr ⟨⟨el', List.mem_cons_of_mem _ hel', hm'⟩, e, ?_⟩
        rw [hrest]
        rfl
    · exact (hfits hel).elim

theorem parseElems_append (els more : List Value) : parseElems now (els ++ more) = (do
    let out ← parseElems now els
    let rest ← parseElems now more
    return out ++ rest) := by
  induction els with
  | nil => simp [parseElems, Outcome.ok_bind]
  | cons el els ih => simp [parseElems, ih]

/-- Items are read as the elements of the sets among them, in order. -/
theorem parseItems_eq (items : List Value) :
    parseItems now items = parseElems now (items.flatMap fun item => (itemElems item).getD []) := by
  induction items with
  | nil => rfl
  | cons item rest ih =>
    rw [List.flatMap_cons, parseElems_append]
    unfold parseItems
    rw [ih]
    cases itemElems item with
    | some elems => rfl
    | none => simp [parseElems, Outcome.ok_bind]

theorem parseDocument_cases (now : DateTime) (v : Value) :
    (elements v = [] ∧ parseDocument now v = .err .noNftables) ∨
      parseDocument now v = parseElems now (elements v) := by
  unfold parseDocument elements
  cases (v.get "nftables").bind Value.asArray with
  | none => exact .inl ⟨rfl, rfl⟩
  | some items => exact .inr (parseItems_eq items)

/-- What is kept of the elements is what they stand for when no seconds are dropped. -/
theorem reads_iff_kept {ms : List (IpNet × Option Int)} (hms : els.map meant = ms.map some) :
    els.map (fun el => (meant el).map (element now)) = (ms.map (kept now)).map some ↔ ∀ el ∈ els, Kept el := by
  induction els generalizing ms with
  | nil =>
    cases ms with
    | nil => simp
    | cons m ms => cases hms
  | cons el rest ih =>
    cases ms with
    | nil => cases hms
    | cons m ms =>
      obtain ⟨hm, hrest⟩ := List.cons.inj hms
      simp only [List.map_cons, List.cons.injEq, List.forall_mem_cons, ih hrest]
      refine and_congr_left fun _ => ?_
      rw [hm, Option.map_some, Option.some.injEq, element_eq_kept_iff]
      unfold Kept
      rw [hm]
      constructor
      · intro hall net secs heq
        cases heq
        exact hall secs rfl
      · intro hall secs hsecs
        exact hall m.1 secs (by rw [← hsecs])

theorem meant_ne_none {ms : List (IpNet × Option Int)} (hms : els.map meant = ms.map some) :
    ∀ el ∈ els, meant el ≠ none := by
  intro el hel hnone
  have hmem : none ∈ ms.map some := by
    rw [← hms, ← hnone]
    exact List.mem_map_of_mem hel
  simp at hmem

/-- A document is read faithfully when, up to the first malformed element, every length that is narrowed
fits into eight bits and every expiry is a time, and when no element is dropped its time. -/
theorem faithful_iff (now : DateTime) (v : Value) : Faithful now v ↔ (∀ el ∈ reached (elements v), Fits now el) ∧
    ((∀ el ∈ elements v, meant el ≠ none) → ∀ el ∈ elements v, Kept el) := by
  have hcover := parseDocument_cases now v
  constructor
  · intro hfaith
    -- without a list of elements nothing is read
    obtain ⟨hempty, -⟩ | hdoc := hcover
    · rw [hempty]
      exact ⟨by simp [reached], by simp⟩
    · have hfits : ∀ el ∈ reached (elements v), Fits now el :=
        parseElems_safe_iff.1 ⟨hfaith.narrowed, hdoc ▸ hfaith.returns⟩
      refine ⟨hfits, fun hall => ?_⟩
      obtain ⟨ms, hms, hread⟩ | ⟨⟨el, hel, hm⟩, -⟩ := parseElems_fits hfits
      -- every element has a meaning: what was read is what they mean, so no time is lost
      · exact (reads_iff_kept hms).1 (hfaith.reads _ (hdoc.trans hread))
      · exact (hall el hel hm).elim
  · rintro ⟨hfits, hkept⟩
    obtain ⟨hempty, hdoc⟩ | hdoc := hcover
    · refine ⟨by simp [hempty, casts], by simp [hdoc], fun es hes => ?_⟩
      rw [hdoc] at hes
      cases hes
    · obtain ⟨hnarrowed, hreturns⟩ := parseElems_safe_iff.2 hfits
      refine ⟨hnarrowed, hdoc ▸ hreturns, fun es hes => ?_⟩
      rw [hdoc] at hes
      obtain ⟨ms, hms, hread⟩ | ⟨-, e, hread⟩ := parseElems_fits hfits
      · obtain rfl : ms.map (kept now) = es := by
          rw [hread] at hes
          injection hes
        exact (reads_iff_kept hms).2 (hkept (meant_ne_none hms))
      · rw [hread] at hes
        cases hes

end Spec

/-- The document of one set. -/
def listing (elems : List Value) : Value :=
  .object [("nftables", .array [.object [("set", .object [("elem", .array elems)])]])]

theorem elements_listing (elems : List Value) : elements (listing elems) = elems := by
  simp [elements, listing, itemElems, Value.get, Value.lookup, Value.asArray]

theorem parseDocument_listing (now : DateTime) (elems : List Value) :
    parseDocument now (listing elems) = parseElems now elems := by
  simp [parseDocument, parseItems, listing, itemElems, Value.get, Value.lookup, Value.asArray, Outcome.ofOption,
    Outcome.ok_bind, Outcome.map_ok]
  exact bind_pure _

def widePrefix : Value :=
  .object [("prefix", .object [("addr", .string "2001:db8::"), ("len", .number (.posInt 280))])]

def longExpiry : Value :=
  .object [("elem", .object [("val", .string "192.0.2.9"), ("expires", .number (.posInt 9223372036854775))])]

/-- A length of 280 is read as 24, and a time too far away is a panic. -/
theorem narrowed_and_panics :
    parseDocument 0 (listing [widePrefix]) =
        .ok [⟨.v6 ⟨0x20010db8000000000000000000000000#128, 24, by decide⟩, none⟩] ∧
      parseDocument 0 (listing [longExpiry]) = .panic ∧
      ¬ Faithful 0 (listing [widePrefix]) ∧ ¬ Faithful 0 (listing [longExpiry]) := by
  have hwide : parseIpAddr "2001:db8::".toList = some (.v6 0x20010db8000000000000000000000000#128) := by
    have h : "2001:db8::".toList = ['2', '0', '0', '1', ':', 'd', 'b', '8', ':', ':'] := String.toList_ofList
    rw [h]
    decide
  have hlong : parseIpAddr "192.0.2.9".toList = some (.v4 0xc0000209#32) := by
    have h : "192.0.2.9".toList = ['1', '9', '2', '.', '0', '.', '2', '.', '9'] := String.toList_ofList
    rw [h]
    decide
  have hcasts : castsElem widePrefix = [280] := by
    simp [castsElem, castsPrefix, widePrefix, Value.get, Value.lookup, Value.asStr, Value.asU64]
  have hpanic : parseDocument 0 (listing [longExpiry]) = .panic := by
    have hnone : ∀ n ∈ castsElem longExpiry, n.toNat < 256 := by
      simp [castsElem, castsVal, longExpiry, Value.get, Value.lookup]
    have hmeant : meant longExpiry = some (hostNet (.v4 0xc0000209#32), some 9223372036854775) := by
      have hsecs : (9223372036854775 : UInt64).toNat = 9223372036854775 := rfl
      simp [-String.reduceToList, meant, meantVal, meantHost, longExpiry, Value.get, Value.lookup, Value.integer, hlong,
        hsecs]
    have hread := parseElem_readAs 0 hnone
    rw [hmeant] at hread
    have hfar : ¬ InRange 0 9223372036854775 := by decide
    unfold ReadAs at hread
    dsimp only at hread
    rw [if_pos (by decide), if_neg hfar] at hread
    rw [parseDocument_listing]
    unfold parseElems
    rw [hread]
    rfl
  refine ⟨?_, hpanic, fun h => ?_, fun h => h.returns hpanic⟩
  · rw [parseDocument_listing]
    simp [-String.reduceToList, parseElems, widePrefix, parseElem, parsePrefix, Value.get, Value.lookup, Value.asStr,
      Value.asU64, Outcome.ofOption, Outcome.ok_bind, hwide, ipNet]
    rfl
  · have hlt : (280 : UInt64).toNat < 256 := by
      refine h.narrowed 280 ?_
      rw [elements_listing]
      unfold casts
      rw [hcasts]
      exact List.mem_cons_self
    exact absurd hlt (by decide)

end Ipgate.Parse
