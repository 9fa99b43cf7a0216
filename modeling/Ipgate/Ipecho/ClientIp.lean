-- SUMMARY: ipecho's clientIP behind trusted proxies: when the client cannot choose the address that is returned.
import Ipgate.Lib.GoIpText

/-!
# The address of the client

`ipecho` answers with the address of its caller. Behind `N` trusted proxies it takes
the `N`-th item from the right of `X-Forwarded-For`, which the outermost proxy wrote.

A proxy adds the address of its peer to the last field line or in a field line of its
own. `clientIP` reads the first field line only, so what the proxies wrote is in sight
only as long as there is one line. Proxies may write an address in any way there is;
one with a zone is no IP address to `net.ParseIP`.
-/

namespace Ipgate.Ipecho

open GoNet Text

/-! ## The source -/

/-- The header fields in order, under their canonical names. -/
abbrev Header := List (String × List Char)

/-- The field lines of a name. -/
def Header.values (h : Header) (name : String) : List (List Char) :=
  (h.filter (·.1 = name)).map (·.2)

/-- `Header.Get`: the first field line, or nothing. -/
def Header.get (h : Header) (name : String) : List Char := (h.values name).headD []

structure Request where
  header : Header
  remoteAddr : List Char

/-- An IP address in its normal form; nothing when it is none. -/
def normalizeIP (s : List Char) : List Char :=
  let s := trimChars s
  let s := match splitHostPort s with
    | some (host, _) => host
    | none => s
  let s := trimSet ['[', ']'] s
  match parseIP s with
  | some ip => ipString ip
  | none => []

def splitTrim (s : List Char) : List (List Char) :=
  ((s.splitOn ',').map trimChars).filter (· ≠ [])

/-- The address in `X-Forwarded-For` that `clientIP` counts to; nothing when there is none. -/
def forwardedIP (xff : List Char) (trustedProxies : Int) : List Char :=
  if xff = [] then []
  else
    let parts := splitTrim xff
    let idx := parts.length - trustedProxies
    if 0 ≤ idx ∧ idx < parts.length then normalizeIP (parts.getD idx.toNat []) else []

/-- The address the connection comes from. -/
def remoteIP (remoteAddr : List Char) : List Char :=
  let host := match splitHostPort remoteAddr with
    | some (host, _) => host
    | none => remoteAddr
  if normalizeIP host ≠ [] then normalizeIP host else host

def clientIP (r : Request) (trustedProxies : Int) : List Char :=
  if 0 < trustedProxies then
    let ip := forwardedIP (r.header.get "X-Forwarded-For") trustedProxies
    if ip ≠ [] then ip else remoteIP r.remoteAddr
  else remoteIP r.remoteAddr

/-! ## Proxies -/

/-- The interface of a link, behind an IPv6 address that means something on that link only. -/
structure Zone where
  name : List Char
  plain : ∀ c ∈ name, c.isAlphanum || ['-', '.', '_', '~'].contains c

inductive PeerAddr where
  | ip (ip : IPAddr)
  | zoned (groups : Vector UInt16 8) (zone : Zone)

namespace PeerAddr

/-- The IP address, unless a zone belongs to it. -/
def toIP : PeerAddr → Option IPAddr
  | .ip a => some a
  | .zoned _ _ => none

/-- The address as it is printed. -/
def string : PeerAddr → List Char
  | .ip a => ipString a.bytes
  | .zoned groups zone => ipString (IPAddr.v6 groups).bytes ++ '%' :: zone.name

/-- The texts of the address. -/
inductive Text : PeerAddr → List Char → Prop where
  | ip {ip : IPAddr} {t : List Char} (h : ip.Text t) : Text (.ip ip) t
  | zoned {groups : Vector UInt16 8} {t : List Char} (h : V6Text t groups.toList) (zone : Zone) :
      Text (.zoned groups zone) (t ++ '%' :: zone.name)

end PeerAddr

/-- What a proxy puts around the text of an address. -/
inductive Frame where
  | bare
  | brackets
  | port (port : UInt16)

def Frame.around (host : List Char) : Frame → List Char
  | .bare => host
  | .brackets => '[' :: host ++ [']']
  | .port p => joinHostPort host (Nat.toDigits 10 p.toNat)

/-- The peer of a proxy, with the text that the proxy writes for its address. -/
structure Peer where
  addr : PeerAddr
  host : List Char
  is_text : addr.Text host
  frame : Frame

def Peer.text (p : Peer) : List Char := p.frame.around p.host

/-- How a proxy adds to the list: at the end of the last field line or in a new one. -/
inductive Adding where
  | append
  | newLine
  deriving DecidableEq

structure Proxy where
  peer : Peer
  adding : Adding

/-- What is put behind a field line for one more item. -/
def Proxy.item (p : Proxy) : List Char := [',', ' '] ++ p.peer.text

/-- Put a text behind the last field line, if there is one. -/
def appendLast (item : List Char) : Header → Option Header
  | [] => none
  | (name, value) :: rest =>
    match appendLast item rest with
    | some rest' => some ((name, value) :: rest')
    | none => if name = "X-Forwarded-For" then some ((name, value ++ item) :: rest) else none

/-- The header behind the proxy. -/
def Proxy.forward (p : Proxy) (h : Header) : Header :=
  let withLine := h ++ [("X-Forwarded-For", p.peer.text)]
  match p.adding with
  | .append => (appendLast p.item h).getD withLine
  | .newLine => withLine

/-- The header behind the proxies, the outermost first. -/
def reach (ps : List Proxy) (h : Header) : Header := ps.foldl (fun h p => p.forward h) h

/-- The field lines of the list. -/
def Header.xff (h : Header) : List (List Char) := h.values "X-Forwarded-For"

theorem xff_cons (name : String) (value : List Char) (h : Header) :
    Header.xff ((name, value) :: h) =
      if name = "X-Forwarded-For" then value :: h.xff else h.xff := by
  by_cases hname : name = "X-Forwarded-For" <;> simp [Header.xff, Header.values, hname]

theorem xff_newLine (h : Header) (value : List Char) :
    Header.xff (h ++ [("X-Forwarded-For", value)]) = h.xff ++ [value] := by
  simp [Header.xff, Header.values]

/-- Nothing is put behind a field line only when there is none. -/
theorem appendLast_eq_none {item : List Char} {h : Header} :
    appendLast item h = none ↔ h.xff = [] := by
  induction h with
  | nil => simp [appendLast, Header.xff, Header.values]
  | cons f rest ih =>
    obtain ⟨name, value⟩ := f
    rw [xff_cons, appendLast]
    cases hrest : appendLast item rest with
    | some rest' =>
      have hlines : Header.xff rest ≠ [] := by
        intro hnil
        rw [ih.mpr hnil] at hrest
        cases hrest
      by_cases hname : name = "X-Forwarded-For" <;> simp [hname, hlines]
    | none =>
      by_cases hname : name = "X-Forwarded-For"
      · simp [hname]
      · simp [hname, ih.mp hrest]

/-- Only the last field line changes. -/
theorem xff_appendLast {item : List Char} {h h' : Header} (happ : appendLast item h = some h') :
    ∃ ls l, h.xff = ls ++ [l] ∧ h'.xff = ls ++ [l ++ item] := by
  induction h generalizing h' with
  | nil => cases happ
  | cons f rest ih =>
    obtain ⟨name, value⟩ := f
    rw [appendLast] at happ
    cases hrest : appendLast item rest with
    | some rest' =>
      rw [hrest] at happ
      cases happ
      obtain ⟨ls, l, hls, hls'⟩ := ih hrest
      rw [xff_cons, xff_cons, hls, hls']
      split
      · exact ⟨value :: ls, l, rfl, rfl⟩
      · exact ⟨ls, l, rfl, rfl⟩
    | none =>
      rw [hrest] at happ
      dsimp only at happ
      split at happ
      · next hname =>
        cases happ
        rw [xff_cons, xff_cons, if_pos hname, if_pos hname, appendLast_eq_none.mp hrest]
        exact ⟨[], value, rfl, rfl⟩
      · cases happ

/-- The first proxy that finds no field line adds one. -/
theorem xff_forward_nil (p : Proxy) {h : Header} (hlines : h.xff = []) :
    (p.forward h).xff = [p.peer.text] := by
  unfold Proxy.forward
  cases p.adding with
  | append =>
    dsimp only
    rw [appendLast_eq_none.mpr hlines, Option.getD_none, xff_newLine, hlines]
    rfl
  | newLine =>
    dsimp only
    rw [xff_newLine, hlines]
    rfl

theorem xff_forward_newLine {p : Proxy} (hp : p.adding = .newLine) (h : Header) :
    (p.forward h).xff = h.xff ++ [p.peer.text] := by
  unfold Proxy.forward
  rw [hp]
  exact xff_newLine ..

theorem xff_forward_append {p : Proxy} (hp : p.adding = .append) {h : Header}
    (hlines : h.xff ≠ []) :
    ∃ ls l, h.xff = ls ++ [l] ∧ (p.forward h).xff = ls ++ [l ++ p.item] := by
  unfold Proxy.forward
  rw [hp]
  dsimp only
  cases happ : appendLast p.item h with
  | none => exact (hlines (appendLast_eq_none.mp happ)).elim
  | some h' => exact xff_appendLast happ

/-- The proxies whose items stand in the first field line: as long as it is the only line and
they append. -/
def carried (others : List (List Char)) (ps : List Proxy) : List Proxy :=
  if others = [] then ps.takeWhile (·.adding = .append) else []

/-- What the service reads: the first field line with the items appended to it. -/
theorem get_reach {h : Header} {l : List Char} {ls : List (List Char)} (hlines : h.xff = l :: ls)
    (ps : List Proxy) :
    (reach ps h).get "X-Forwarded-For" = l ++ (carried ls ps).flatMap Proxy.item := by
  induction ps generalizing h l ls with
  | nil =>
    have hhead : h.get "X-Forwarded-For" = l := by
      have hget : h.get "X-Forwarded-For" = h.xff.headD [] := rfl
      rw [hget, hlines]
      rfl
    have hnone : carried ls [] = [] := by simp [carried]
    rw [hnone]
    simpa [reach] using hhead
  | cons p ps ih =>
    have hstep : reach (p :: ps) h = reach ps (p.forward h) := rfl
    rw [hstep]
    cases hp : p.adding with
    | newLine =>
      -- a line of its own, behind the first one: that is not read any more
      have hforward : (p.forward h).xff = l :: (ls ++ [p.peer.text]) := by
        rw [xff_forward_newLine hp, hlines]
        rfl
      rw [ih hforward]
      have hbefore : carried (ls ++ [p.peer.text]) ps = [] := by simp [carried]
      have hafter : carried ls (p :: ps) = [] := by simp [carried, hp]
      rw [hbefore, hafter]
    | append =>
      obtain ⟨ls', l', hlast, hforward⟩ := xff_forward_append hp (by rw [hlines]; simp)
      rw [hlines] at hlast
      cases ls' with
      | nil =>
        obtain ⟨rfl, rfl⟩ : l = l' ∧ ls = [] := by simpa using hlast
        have hcarried : carried [] (p :: ps) = p :: carried [] ps := by simp [carried, hp]
        rw [ih hforward, hcarried, List.flatMap_cons, List.append_assoc]
      -- the item goes to the last line, which is not the first
      | cons l₁ ls' =>
        obtain ⟨rfl, rfl⟩ : l = l₁ ∧ ls = ls' ++ [l'] := by simpa using hlast
        rw [List.cons_append] at hforward
        rw [ih hforward]
        have hbefore : carried (ls' ++ [l' ++ p.item]) ps = [] := by simp [carried]
        have hafter : carried (ls' ++ [l']) (p :: ps) = [] := by simp [carried]
        rw [hbefore, hafter]

/-! ## What is read of a peer -/

section Peers

variable {c : Char} {host : List Char} {addr : PeerAddr}

/-- The characters that texts of addresses and zones have none of. -/
def isDelimiter (c : Char) : Bool := isWhitespace c || [',', '[', ']'].contains c

theorem not_isDelimiter_of_ascii (hrange : 33 ≤ c.toNat ∧ c.toNat < 127)
    (hnot : [',', '[', ']'].contains c = false) : isDelimiter c = false := by
  unfold isDelimiter
  rw [not_isWhitespace_of_ascii hrange.1 hrange.2, hnot]
  rfl

theorem not_isDelimiter_of_isHex (h : isHex c = true) : isDelimiter c = false := by
  have hrange := range_of_isHex h
  refine not_isDelimiter_of_ascii (by omega) ?_
  rw [Bool.eq_false_iff]
  intro hin
  simp only [List.contains_iff_mem, List.mem_cons, List.not_mem_nil, or_false] at hin
  rcases hin with rfl | rfl | rfl
  · cases h
  · cases h
  · cases h

theorem not_isDelimiter_of_isAddrChar (h : isAddrChar c = true) : isDelimiter c = false := by
  unfold isAddrChar at h
  rw [Bool.or_eq_true, Bool.or_eq_true, beq_iff_eq, beq_iff_eq] at h
  rcases h with (h | rfl) | rfl
  · exact not_isDelimiter_of_isHex h
  · decide
  · decide

theorem Zone.not_isDelimiter (zone : Zone) (h : c ∈ zone.name) : isDelimiter c = false ∧ c ≠ ':' := by
  have hplain := zone.plain c h
  rw [Bool.or_eq_true] at hplain
  cases hplain with
  | inl halnum =>
    have hrange : (48 ≤ c.toNat ∧ c.toNat ≤ 57) ∨ (65 ≤ c.toNat ∧ c.toNat ≤ 90) ∨ (97 ≤ c.toNat ∧ c.toNat ≤ 122) := by
      change (decide (c.val ≥ 'A'.val ∧ c.val ≤ 'Z'.val) || (c.val ≥ 'a'.val && c.val ≤ 'z'.val) ||
        (c.val ≥ '0'.val && c.val ≤ '9'.val)) = true at halnum
      simp [UInt32.le_iff_toNat_le] at halnum
      omega
    have hnot (d : Char) (hd : d.toNat < 48 ∨ d.toNat = 58 ∨ d.toNat = 91 ∨ d.toNat = 93) : c ≠ d := by
      rintro rfl
      omega
    refine ⟨not_isDelimiter_of_ascii (by omega) ?_, hnot ':' (by decide)⟩
    simp [hnot ',' (by decide), hnot '[' (by decide), hnot ']' (by decide)]
  | inr hother =>
    simp only [List.contains_iff_mem, List.mem_cons, List.not_mem_nil, or_false] at hother
    rcases hother with rfl | rfl | rfl | rfl
    · decide
    · decide
    · decide
    · decide

theorem PeerAddr.Text.not_isDelimiter (h : addr.Text host) (hc : c ∈ host) : isDelimiter c = false := by
  cases h with
  | ip h =>
    cases h with
    | v4 => exact not_isDelimiter_of_isAddrChar (isAddrChar_dotted hc)
    | v6 h => exact not_isDelimiter_of_isAddrChar (h.isAddrChar hc)
  | zoned h zone =>
    rw [List.mem_append, List.mem_cons] at hc
    rcases hc with hc | rfl | hc
    · exact not_isDelimiter_of_isAddrChar (h.isAddrChar hc)
    · decide
    · exact (zone.not_isDelimiter hc).1

/-- A text has no colon or more than one. -/
theorem PeerAddr.Text.count_colon (h : addr.Text host) : host.count ':' ≠ 1 := by
  cases h with
  | ip h =>
    cases h with
    | v4 a b c d =>
      rw [List.count_eq_zero_of_not_mem (colon_not_mem_dotted a b c d)]
      decide
    | v6 h =>
      have htwo := h.two_colons
      omega
  | zoned h zone =>
    have htwo := h.two_colons
    rw [List.count_append]
    omega

theorem PeerAddr.Text.ne_nil (h : addr.Text host) : host ≠ [] := by
  rintro rfl
  generalize hnil : ([] : List Char) = host at h
  cases h with
  | ip h =>
    cases h with
    | v4 a b c d =>
      rw [dotted_eq] at hnil
      simp at hnil
    | v6 h =>
      rw [← hnil] at h
      have htwo := h.two_colons
      cases htwo
  | zoned h zone => simp at hnil

/-- What is read of the address as an IP address. -/
theorem PeerAddr.Text.parseIP (h : addr.Text host) : GoNet.parseIP host = addr.toIP.map IPAddr.bytes := by
  cases h with
  | ip h => exact parseIP_text h
  | zoned h zone => exact parseIP_zone h zone.name

theorem dropWhile_of_plain {set l : List Char} (h : ∀ c ∈ l, set.contains c = false) :
    l.dropWhile (set.contains ·) = l := by
  rw [List.dropWhile_eq_self_iff]
  intro hpos
  rw [h _ (List.getElem_mem hpos)]
  exact Bool.false_ne_true

theorem trimSet_of_plain {set : List Char} (h : ∀ c ∈ host, set.contains c = false) : trimSet set host = host := by
  unfold trimSet
  rw [dropWhile_of_plain h, dropWhile_of_plain fun c hc => h c (List.mem_reverse.mp hc), List.reverse_reverse]

theorem trimSet_brackets (h : ∀ c ∈ host, ['[', ']'].contains c = false) :
    trimSet ['[', ']'] ('[' :: host ++ [']']) = host := by
  cases host with
  | nil => decide
  | cons c host =>
    have hfront : ('[' :: (c :: host) ++ [']']).dropWhile (['[', ']'].contains ·) = (c :: host) ++ [']'] := by
      rw [List.cons_append, List.dropWhile_cons_of_pos (by decide), List.cons_append,
        List.dropWhile_cons_of_neg (by rw [h c (List.mem_cons_self ..)]; exact Bool.false_ne_true)]
    unfold trimSet
    rw [hfront, List.reverse_append, List.reverse_singleton, List.singleton_append,
      List.dropWhile_cons_of_pos (by decide), dropWhile_of_plain fun d hd => h d (List.mem_reverse.mp hd),
      List.reverse_reverse]

theorem Peer.not_isDelimiter (p : Peer) (h : c ∈ p.host) : isDelimiter c = false := p.is_text.not_isDelimiter h

theorem Peer.no_brackets (p : Peer) : ∀ c ∈ p.host, ['[', ']'].contains c = false := by
  intro c hc
  have hplain := p.not_isDelimiter hc
  unfold isDelimiter at hplain
  rw [Bool.or_eq_false_iff] at hplain
  rw [Bool.eq_false_iff] at hplain ⊢
  simp_all

/-- An item has neither blanks nor commas in it. -/
theorem Peer.text_plain (p : Peer) (h : c ∈ p.text) : isWhitespace c = false ∧ c ≠ ',' := by
  have hhost (hc : c ∈ p.host) : isWhitespace c = false ∧ c ≠ ',' := by
    have hplain := p.not_isDelimiter hc
    unfold isDelimiter at hplain
    rw [Bool.or_eq_false_iff] at hplain
    refine ⟨hplain.1, ?_⟩
    rintro rfl
    cases hplain.2
  have hport {port : UInt16} (hc : c ∈ Nat.toDigits 10 port.toNat) : isWhitespace c = false ∧ c ≠ ',' := by
    have hdigit := Nat.isDigit_of_mem_toDigits (by decide) (by decide) hc
    refine ⟨not_isWhitespace_of_isDigit hdigit, ?_⟩
    rintro rfl
    cases hdigit
  unfold Peer.text Frame.around at h
  cases hframe : p.frame with
  | bare =>
    rw [hframe] at h
    exact hhost h
  | brackets =>
    rw [hframe] at h
    simp only [List.mem_append, List.mem_cons, List.not_mem_nil, or_false] at h
    rcases h with (rfl | h) | rfl
    · decide
    · exact hhost h
    · decide
  | port port =>
    rw [hframe] at h
    simp only [joinHostPort] at h
    split at h
    -- a colon in the host: it stands in brackets
    · simp only [List.mem_append, List.mem_cons] at h
      rcases h with (rfl | h) | rfl | rfl | h
      · decide
      · exact hhost h
      · decide
      · decide
      · exact hport h
    · rw [List.mem_append, List.mem_cons] at h
      rcases h with h | rfl | h
      · exact hhost h
      · decide
      · exact hport h

theorem Peer.trim_text (p : Peer) : trimChars p.text = p.text := trimChars_of_plain fun _ hc => (p.text_plain hc).1

theorem Peer.text_ne_nil (p : Peer) : p.text ≠ [] := by
  unfold Peer.text Frame.around
  cases p.frame with
  | bare => exact p.is_text.ne_nil
  | brackets => simp
  | port port =>
    dsimp only
    unfold joinHostPort
    split <;> simp

/-- Whatever is around the text of an address is taken off. -/
theorem normalizeIP_text (p : Peer) :
    normalizeIP p.text = (p.addr.toIP.map fun a => ipString a.bytes).getD [] := by
  have hread := p.is_text.parseIP
  have hopen : '[' ∉ p.host := fun hin => by cases p.no_brackets '[' hin
  have hclose : ']' ∉ p.host := fun hin => by cases p.no_brackets ']' hin
  -- port and brackets off, whichever of them there are
  have hstrip : trimSet ['[', ']'] (match splitHostPort p.text with
      | some (host, _) => host
      | none => p.text) = p.host := by
    unfold Peer.text Frame.around
    cases p.frame with
    | bare =>
      dsimp only
      rw [splitHostPort_bare hopen p.is_text.count_colon]
      exact trimSet_of_plain p.no_brackets
    | brackets =>
      dsimp only
      rw [splitHostPort_brackets hclose]
      exact trimSet_brackets p.no_brackets
    | port port =>
      dsimp only
      rw [splitHostPort_joinHostPort ⟨hopen, hclose⟩ fun c hc =>
        Nat.isDigit_of_mem_toDigits (by decide) (by decide) hc]
      exact trimSet_of_plain p.no_brackets
  unfold normalizeIP
  dsimp only
  rw [p.trim_text, hstrip, hread]
  cases p.addr.toIP <;> rfl

/-- What is printed for an address is not empty. -/
theorem ipString_ne_nil (a : IPAddr) : ipString a.bytes ≠ [] := by
  intro hnil
  have hread := parseIP_ipString a
  rw [hnil] at hread
  cases hread

end Peers

/-! ## Items -/

theorem splitTrim_append (l r : List Char) :
    splitTrim (l ++ ',' :: r) = splitTrim l ++ splitTrim r := by
  simp [splitTrim, List.splitOn_append_cons_self]

/-- A text without commas is one item unless it is blank. -/
theorem splitTrim_single {s : List Char} (hcomma : ',' ∉ s) (hne : trimChars s ≠ []) :
    splitTrim s = [trimChars s] := by
  simp [splitTrim, splitOn_of_not_mem hcomma, hne]

theorem Peer.no_comma (p : Peer) : ',' ∉ p.text := fun hin => (p.text_plain hin).2 rfl

theorem splitTrim_text (p : Peer) : splitTrim p.text = [p.text] := by
  have hsingle := splitTrim_single p.no_comma (by rw [p.trim_text]; exact p.text_ne_nil)
  rwa [p.trim_text] at hsingle

theorem splitTrim_peer (p : Peer) : splitTrim (' ' :: p.text) = [p.text] := by
  have hblank : trimChars (' ' :: p.text) = p.text := by
    have hskip : trimChars (' ' :: p.text) = trimChars p.text := by
      simp [trimChars, show isWhitespace ' ' = true by decide]
    rw [hskip, p.trim_text]
  have hcomma : ',' ∉ ' ' :: p.text := by simpa using p.no_comma
  rw [splitTrim_single hcomma (by rw [hblank]; exact p.text_ne_nil), hblank]

theorem splitTrim_items (l : List Char) (ps : List Proxy) :
    splitTrim (l ++ ps.flatMap Proxy.item) = splitTrim l ++ ps.map fun p => p.peer.text := by
  induction ps generalizing l with
  | nil => simp
  | cons p ps ih =>
    have hitem : l ++ (p :: ps).flatMap Proxy.item =
        l ++ ',' :: ((' ' :: p.peer.text) ++ ps.flatMap Proxy.item) := by
      simp [Proxy.item]
    rw [hitem, splitTrim_append, ih, splitTrim_peer]
    rfl

/-- The service takes the item with `n` items from it to the end. -/
theorem forwardedIP_item {xff : List Char} {before behind : List (List Char)} {item : List Char}
    {n : Nat} (hparts : splitTrim xff = before ++ item :: behind) (hn : n = behind.length + 1) :
    forwardedIP xff n = normalizeIP item := by
  have hne : xff ≠ [] := by
    rintro rfl
    have hnone : splitTrim [] = [] := by decide
    simp [hnone] at hparts
  have hlen : (splitTrim xff).length = before.length + n := by simp [hparts, hn]
  have hidx : ((splitTrim xff).length : Int) - n = before.length := by omega
  unfold forwardedIP
  rw [if_neg hne]
  dsimp only
  rw [hidx, if_pos (by omega), Int.toNat_natCast, hparts]
  simp

/-- With fewer than `n` items none is taken. -/
theorem forwardedIP_short {xff : List Char} {n : Nat} (hlen : (splitTrim xff).length < n) :
    forwardedIP xff n = [] := by
  unfold forwardedIP
  split
  · rfl
  · dsimp only
    rw [if_neg (by omega)]

theorem clientIP_forwarded {r : Request} {n : Nat} {ip : List Char} (hn : 0 < n)
    (h : forwardedIP (r.header.get "X-Forwarded-For") n = ip) (hip : ip ≠ []) :
    clientIP r n = ip := by
  unfold clientIP
  rw [if_pos (by omega)]
  dsimp only
  rw [h, if_pos hip]

theorem clientIP_remote {r : Request} {n : Nat}
    (h : forwardedIP (r.header.get "X-Forwarded-For") n = []) :
    clientIP r n = remoteIP r.remoteAddr := by
  unfold clientIP
  split
  · dsimp only
    rw [h, if_neg (not_not_intro rfl)]
  · rfl

/-- What `clientIP` makes of the text of a peer: the address, or that of the connection if a zone
belongs to it. -/
def Peer.answer (p : Peer) (remoteAddr : List Char) : List Char :=
  if p.addr.toIP = none then remoteIP remoteAddr else p.addr.string

theorem clientIP_item {r : Request} {n : Nat} (p : Peer) (hn : 0 < n)
    (h : forwardedIP (r.header.get "X-Forwarded-For") n = normalizeIP p.text) :
    clientIP r n = p.answer r.remoteAddr := by
  rw [normalizeIP_text] at h
  unfold Peer.answer
  cases haddr : p.addr with
  | ip a =>
    rw [haddr] at h
    rw [if_neg (by simp [PeerAddr.toIP])]
    exact clientIP_forwarded hn h (ipString_ne_nil a)
  | zoned groups zone =>
    rw [haddr] at h
    rw [if_pos (show (PeerAddr.zoned groups zone).toIP = none from rfl)]
    exact clientIP_remote h

/-! ## What the client can choose -/

/-- The number of items of the first field line that the proxies wrote, if there is one. -/
theorem splitTrim_reach {h : Header} {l : List Char} {ls : List (List Char)}
    (hlines : h.xff = l :: ls) (ps : List Proxy) :
    splitTrim ((reach ps h).get "X-Forwarded-For") =
      splitTrim l ++ (carried ls ps).map fun p => p.peer.text := by
  rw [get_reach hlines, splitTrim_items]

theorem carried_append {ps : List Proxy} (hps : ∀ p ∈ ps, p.adding = .append) :
    carried [] ps = ps := by
  have hall : ps.takeWhile (·.adding = .append) = ps := by
    rw [List.takeWhile_eq_self_iff]
    simpa using hps
  simp [carried, hall]

/-- A proxy that does not append hides its item and those after it. -/
theorem length_carried_lt {ls : List (List Char)} {ps : List Proxy} {p : Proxy} (hp : p ∈ ps)
    (hhidden : ls ≠ [] ∨ p.adding ≠ .append) : (carried ls ps).length < ps.length := by
  unfold carried
  split
  · next hnil =>
    have hp' : p.adding ≠ .append := hhidden.resolve_left fun hne => hne hnil
    have hle := (List.takeWhile_prefix (l := ps) (·.adding = .append)).length_le
    refine Nat.lt_of_le_of_ne hle fun heq => hp' ?_
    have hall := (List.takeWhile_prefix (l := ps) (·.adding = .append)).eq_of_length heq
    simpa using List.takeWhile_eq_self_iff.mp hall p hp
  · exact List.length_pos_of_mem hp

/-- With the items of all proxies in the first line the service finds what the outermost wrote. -/
theorem clientIP_of_parts {r : Request} {before : List (List Char)} {first : Proxy}
    {others : List Proxy}
    (hparts : splitTrim (r.header.get "X-Forwarded-For") =
      before ++ (first :: others).map fun p => p.peer.text) :
    clientIP r ((first :: others).length : Nat) = first.peer.answer r.remoteAddr := by
  refine clientIP_item first.peer (Nat.zero_lt_succ _) ?_
  rw [forwardedIP_item hparts (by rw [List.length_map]; rfl)]

/-! ## A client that lies -/

/-- A field line with the same address `n` times. -/
def spoof (p : Peer) (n : Nat) : List Char :=
  (List.replicate n (⟨p, .append⟩ : Proxy)).flatMap Proxy.item

theorem splitTrim_spoof (p : Peer) (n : Nat) : splitTrim (spoof p n) = List.replicate n p.text := by
  have hitems := splitTrim_items [] (List.replicate n (⟨p, .append⟩ : Proxy))
  have hnil : splitTrim [] = [] := by decide
  rw [hnil, List.nil_append, List.nil_append, List.map_replicate] at hitems
  exact hitems

/-- A client whose first line has `n` items for `n` proxies is believed when one of their items
is not in that line. -/
theorem clientIP_spoofed {h : Header} {ls : List (List Char)} {ps : List Proxy} (p : Peer)
    (hlines : h.xff = spoof p ps.length :: ls) (hshort : (carried ls ps).length < ps.length)
    (remoteAddr : List Char) :
    clientIP ⟨reach ps h, remoteAddr⟩ (ps.length : Nat) = p.answer remoteAddr := by
  have hparts := splitTrim_reach hlines ps
  obtain ⟨rest, hrest⟩ : ∃ rest, ps.length = (carried ls ps).length + (1 + rest) :=
    ⟨ps.length - (carried ls ps).length - 1, by omega⟩
  rw [splitTrim_spoof, hrest, List.replicate_add, List.replicate_add, List.replicate_one,
    List.append_assoc, List.append_assoc, List.singleton_append] at hparts
  refine clientIP_item p (by omega) ?_
  rw [forwardedIP_item hparts]
  simp only [List.length_append, List.length_replicate, List.length_map]
  omega

/-- A host as a peer, with its address in dotted notation. -/
def Peer.ofV4 (a b c d : UInt8) : Peer := ⟨.ip (.v4 a b c d), dotted a b c d, .ip (.v4 a b c d), .bare⟩

theorem Peer.answer_ofV4 (a b c d : UInt8) (remoteAddr : List Char) :
    (Peer.ofV4 a b c d).answer remoteAddr = dotted a b c d := rfl

/-- An address other than the given one. -/
theorem exists_other (address : List Char) : ∃ p : Peer, ∀ remoteAddr, p.answer remoteAddr ≠ address := by
  by_cases hone : dotted 1 1 1 1 = address
  · refine ⟨.ofV4 2 2 2 2, fun remoteAddr => ?_⟩
    rw [Peer.answer_ofV4, ← hone]
    decide
  · exact ⟨.ofV4 1 1 1 1, fun remoteAddr => hone⟩

/-- The lines behind the first proxy when the client sends none. -/
theorem splitTrim_reach_nil {h : Header} (hlines : h.xff = []) (first : Proxy)
    (others : List Proxy) :
    splitTrim ((reach (first :: others) h).get "X-Forwarded-For") =
      first.peer.text :: (carried [] others).map fun p => p.peer.text := by
  have hstep : reach (first :: others) h = reach others (first.forward h) := rfl
  rw [hstep, splitTrim_reach (xff_forward_nil first hlines) others, splitTrim_text]
  rfl

/-- A client that sends no line, with a proxy behind the first that does not append: only the
connection is left to go by. -/
theorem clientIP_hidden {h : Header} (hlines : h.xff = []) {first p : Proxy}
    {others : List Proxy} (hp : p ∈ others) (hnew : p.adding ≠ .append)
    (remoteAddr : List Char) :
    clientIP ⟨reach (first :: others) h, remoteAddr⟩ ((first :: others).length : Nat) =
      remoteIP remoteAddr := by
  have hlen : (carried [] others).length < others.length := length_carried_lt hp (.inr hnew)
  refine clientIP_remote (forwardedIP_short ?_)
  rw [splitTrim_reach_nil hlines, List.length_cons, List.length_map, List.length_cons]
  omega

/-- Where no client with a line can choose the answer, that line is the only one, and all append
to it. -/
theorem append_of_unspoofed {first : Proxy} {others : List Proxy} {remoteAddr address : List Char} {k : Nat}
    (h : ∀ client : Header, client.xff.length = k + 1 →
      clientIP ⟨reach (first :: others) client, remoteAddr⟩ ((first :: others).length : Nat) = address) :
    k = 0 ∧ ∀ p ∈ first :: others, p.adding = .append := by
  -- a client that lies in its first line
  obtain ⟨p, hp⟩ := exists_other address
  let lines := spoof p (first :: others).length :: List.replicate k []
  have hlines : Header.xff (lines.map fun l => ("X-Forwarded-For", l)) = lines := by
    simp [Header.xff, Header.values, List.filter_map, Function.comp_def]
  have hlen : (Header.xff (lines.map fun l => ("X-Forwarded-For", l))).length = k + 1 := by
    rw [hlines]
    simp [lines]
  have hcarried : ¬(carried (List.replicate k []) (first :: others)).length <
      (first :: others).length := by
    intro hshort
    have hanswer := h _ hlen
    rw [clientIP_spoofed p hlines hshort] at hanswer
    exact hp remoteAddr hanswer
  constructor
  · by_contra hne
    have hreplicate : List.replicate k ([] : List Char) ≠ [] := by simpa using hne
    exact hcarried (length_carried_lt (List.mem_cons_self ..) (.inl hreplicate))
  · intro p hmem
    by_contra hnew
    exact hcarried (length_carried_lt hmem (.inr hnew))

/-- The client sends at most one field line, and every proxy that finds one appends to it. -/
def InOneLine (ps : List Proxy) (k : Nat) : Prop := k ≤ 1 ∧ ∀ p ∈ ps.drop (1 - k), p.adding = .append

/-- With all items in one line, the answer is read off what the outermost proxy wrote. -/
theorem clientIP_inOneLine {first : Proxy} {others : List Proxy} {k : Nat} (h : InOneLine (first :: others) k)
    {client : Header} (hlen : client.xff.length = k) (remoteAddr : List Char) :
    clientIP ⟨reach (first :: others) client, remoteAddr⟩ ((first :: others).length : Nat) =
      first.peer.answer remoteAddr := by
  obtain ⟨hk, happend⟩ := h
  cases k with
  | zero =>
    have hparts := splitTrim_reach_nil (List.length_eq_zero_iff.mp hlen) first others
    have hothers : ∀ p ∈ others, p.adding = .append := happend
    rw [carried_append hothers] at hparts
    exact clientIP_of_parts (hparts.trans (List.nil_append _).symm)
  | succ k =>
    obtain ⟨l, hline⟩ : ∃ l, client.xff = [l] := List.length_eq_one_iff.mp (by omega)
    have hdrop : 1 - (k + 1) = 0 := by omega
    rw [hdrop, List.drop_zero] at happend
    have hparts := splitTrim_reach hline (first :: others)
    rw [carried_append happend] at hparts
    exact clientIP_of_parts hparts

/-- The answer is what the outermost proxy saw if all items are in one line and no zone belongs to the
address, or if the service has to go by the connection and that is from the address. -/
theorem clientIP_unspoofed {first : Proxy} {others : List Proxy} {remoteAddr : List Char} {k : Nat}
    (h : (InOneLine (first :: others) k ∧
        (first.peer.addr.toIP = none → remoteIP remoteAddr = first.peer.addr.string)) ∨
      (k = 0 ∧ remoteIP remoteAddr = first.peer.addr.string))
    {client : Header} (hlen : client.xff.length = k) :
    clientIP ⟨reach (first :: others) client, remoteAddr⟩ ((first :: others).length : Nat) =
      first.peer.addr.string := by
  by_cases hline : InOneLine (first :: others) k
  · have hremote : first.peer.addr.toIP = none → remoteIP remoteAddr = first.peer.addr.string :=
      h.elim And.right fun h _ => h.2
    rw [clientIP_inOneLine hline hlen]
    unfold Peer.answer
    split
    · next hzone => exact hremote hzone
    · rfl
  · obtain ⟨rfl, hremote⟩ := h.resolve_left fun h => hline h.1
    have hnot : ¬∀ p ∈ others, p.adding = .append := fun hall => hline ⟨Nat.zero_le 1, hall⟩
    obtain ⟨p, hp⟩ := not_forall.mp hnot
    obtain ⟨hmem, hnew⟩ := Classical.not_imp.mp hp
    rw [clientIP_hidden (List.length_eq_zero_iff.mp hlen) hmem hnew, hremote]

/-- Over everything a client can send in `k` field lines, the answer is what the outermost proxy
saw, exactly when the first field line carries the items of all proxies and no zone belongs to that
address, or the service goes by the connection and the connection itself comes from that address. -/
theorem clientIP_unspoofed_iff (first : Proxy) (others : List Proxy) (remoteAddr : List Char)
    (k : Nat) :
    (∀ client : Header, client.xff.length = k →
      clientIP ⟨reach (first :: others) client, remoteAddr⟩ ((first :: others).length : Nat) =
        first.peer.addr.string ∧
      ∀ client' : Header, client'.xff.length = k →
        clientIP ⟨reach (first :: others) client', remoteAddr⟩ ((first :: others).length : Nat) =
          clientIP ⟨reach (first :: others) client, remoteAddr⟩
            ((first :: others).length : Nat)) ↔
    (InOneLine (first :: others) k ∧
        (first.peer.addr.toIP = none → remoteIP remoteAddr = first.peer.addr.string)) ∨
      (k = 0 ∧ remoteIP remoteAddr = first.peer.addr.string) := by
  constructor
  · intro h
    by_cases hline : InOneLine (first :: others) k
    · refine .inl ⟨hline, fun hzone => ?_⟩
      -- a client of empty lines is one of those quantified over
      let client : Header := (List.replicate k []).map fun l => ("X-Forwarded-For", l)
      have hlen : client.xff.length = k := by simp [client, Header.xff, Header.values]
      have hanswer := (h client hlen).1
      rw [clientIP_inOneLine hline hlen, Peer.answer, if_pos hzone] at hanswer
      exact hanswer
    · cases k with
      | zero =>
        have hnot : ¬∀ p ∈ others, p.adding = .append := fun hall => hline ⟨Nat.zero_le 1, hall⟩
        obtain ⟨p, hp⟩ := not_forall.mp hnot
        obtain ⟨hmem, hnew⟩ := Classical.not_imp.mp hp
        have hanswer := (h [] rfl).1
        rw [clientIP_hidden rfl hmem hnew] at hanswer
        exact .inr ⟨rfl, hanswer⟩
      -- with a line of its own the client writes what is read
      | succ k =>
        obtain ⟨rfl, happend⟩ := append_of_unspoofed fun client hlen => (h client hlen).1
        exact (hline ⟨Nat.le_refl 1, happend⟩).elim
  · intro h client hlen
    refine ⟨clientIP_unspoofed h hlen, fun client' hlen' => ?_⟩
    rw [clientIP_unspoofed h hlen, clientIP_unspoofed h hlen']

/-- Behind one proxy that adds a line of its own, the client's line is believed. -/
theorem client_line_believed :
    let peer : Peer := .ofV4 9 9 9 9
    let answer (client : Header) : List Char :=
      clientIP ⟨reach [⟨peer, .newLine⟩] client, "10.0.0.1:4000".toList⟩ 1
    answer [("X-Forwarded-For", "1.2.3.4".toList)] = "1.2.3.4".toList ∧
      answer [("X-Forwarded-For", "1.2.3.4".toList)] ≠ peer.addr.string ∧
      answer [] = peer.addr.string := by
  decide +kernel

end Ipgate.Ipecho
