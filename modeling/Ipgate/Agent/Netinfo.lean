-- SUMMARY: netinfo.rs: the interfaces, addresses and default route of the host, read from what the `ip` command prints.
import Mathlib.Data.String.Basic
import Ipgate.Agent.Nft.Path
import Ipgate.Agent.Nft.Template
import Ipgate.Lib.Grouped
import Ipgate.Lib.IpText

/-!
# Interfaces of the host

The agent runs `ip route show default` and `ip -o -4 addr show` whenever it needs to know an interface
or an address, and looks for the words behind `dev` and behind `inet`. What is printed is taken apart here
again: for the tables that the host has, every interface comes with its addresses.
-/

namespace Ipgate.Netinfo

open Net

/-! ## Reading -/

/-- What the two commands print; nothing when a command cannot be run. -/
structure Printed where
  route : Option String
  addr : Option String

/-- The interface and the address on a line, if it has both. -/
def readLine (line : List Char) : Option (String × BitVec 32) :=
  let toks := Text.splitWhitespace line
  if toks.length < 4 then none
  else do
    let ifname ← toks[1]?
    -- The first such word, which is the name itself for an interface that is called so.
    let pos ← toks.findIdx? (· = "inet".toList)
    let ipcidr ← toks[pos + 1]?
    let s ← (ipcidr.splitOn '/').head?
    let ip ← parseIpv4 (String.ofList s)
    return (String.ofList ifname, ip)

def addLine (map : List (String × List (BitVec 32))) (line : List Char) : List (String × List (BitVec 32)) :=
  match readLine line with
  | some (ifname, ip) => Grouped.push ifname ip map
  | none => map

/-- The interfaces with an IPv4 address. -/
def interfaces (out : Printed) : List InterfaceInfo :=
  let default := defaultRouteIface out.route
  match out.addr with
  | none => []
  | some text =>
    let map := (Text.lines text.toList).foldl addLine []
    map.map fun (name, ipv4) => { name, ipv4, isDefaultRoute := default = some name }

def firstIpv4 (out : Printed) (iface : String) : Option (BitVec 32) :=
  ((interfaces out).find? (·.name = iface)).bind (·.ipv4.head?)

def ifaceHasIpv4 (out : Printed) (iface : String) (ip : BitVec 32) : Bool :=
  (((interfaces out).find? (·.name = iface)).map (·.ipv4.contains ip)).getD false

/-- A host that runs the commands anew for each question. -/
def hostEnv (lookup : String → Option (BitVec 32)) (forDefault forHas forFirst : Printed) : HostEnv where
  defaultRouteIface := Ipgate.defaultRouteIface forDefault.route
  lookup := lookup
  firstIpv4 := firstIpv4 forFirst
  ifaceHasIpv4 := ifaceHasIpv4 forHas

/-! ## What is printed -/

/-- A word of the printed tables. -/
abbrev Word := { t : List Char // Text.Word t }

def Word.string (w : Word) : String := String.ofList w.1

/-- A default route. -/
structure RouteRow where
  /-- The gateway, for a route that has one. -/
  via : List Word
  device : Word
  more : List Word
  via_no_dev : ∀ w ∈ via, w.1 ≠ "dev".toList

/-- The words behind `default`. -/
def RouteRow.words (r : RouteRow) : List (List Char) :=
  r.via.map Subtype.val ++ "dev".toList :: r.device.1 :: r.more.map Subtype.val

/-- A route is printed with a space at the end of its line. -/
def RouteRow.line (r : RouteRow) : List Char := "default".toList ++ Text.spaced (r.words.map (0, ·)) ++ [' ']

/-- An address of an interface. -/
structure AddrRow where
  index : ℕ
  iface : Word
  /-- The name is filled up with spaces. -/
  pad : ℕ
  addr : BitVec 32
  /-- The length of the network; a peer is printed in its place. -/
  len : Option ℕ
  more : List (ℕ × Word)

def AddrRow.name (r : AddrRow) : String := r.iface.string

def AddrRow.cidr (r : AddrRow) : List Char :=
  (ipv4String r.addr).toList ++ r.len.elim [] fun n => '/' :: Nat.toDigits 10 n

def AddrRow.words (r : AddrRow) : List (ℕ × List Char) :=
  (0, r.iface.1) :: (r.pad, "inet".toList) :: (0, r.cidr) :: r.more.map fun (n, w) => (n, w.1)

def AddrRow.line (r : AddrRow) : List Char := (Nat.toDigits 10 r.index ++ [':']) ++ Text.spaced r.words

/-- The tables of the host at one time. -/
structure Tables where
  routes : List RouteRow
  addrs : List AddrRow

def text (ls : List (List Char)) : String := String.ofList (ls.flatMap (· ++ ['\n']))

def Tables.print (t : Tables) : Printed where
  route := some (text (t.routes.map (·.line)))
  addr := some (text (t.addrs.map (·.line)))

/-- The device of the first of the default routes. -/
def Tables.device (t : Tables) : Option String := t.routes.head?.map (·.device.string)

/-- The addresses of an interface. One that is called `inet` hides its own. -/
def Tables.addrsOf (t : Tables) (iface : String) : List (BitVec 32) :=
  (t.addrs.filter fun r => r.name = iface ∧ r.name ≠ "inet").map (·.addr)

/-! ## What is read -/

section Rows

variable {t : Tables} {r : AddrRow} {i : InterfaceInfo} {iface : String} {ip : BitVec 32}

theorem word_of_all {cs : List Char} (hne : cs ≠ []) (hall : cs.all (!Text.isWhitespace ·) = true) : Text.Word cs :=
  ⟨hne, fun c hc => by simpa using List.all_eq_true.mp hall c hc⟩

theorem cidr_word (r : AddrRow) : Text.Word r.cidr := by
  refine ⟨?_, fun c hc => ?_⟩
  · intro hnil
    have hdot : '.' ∈ r.cidr := List.mem_append_left _ (dot_mem_ipv4String r.addr)
    rw [hnil] at hdot
    cases hdot
  · have hdigit (n : ℕ) (hmem : c ∈ Nat.toDigits 10 n) : Text.isWhitespace c = false :=
      Text.not_isWhitespace_of_isDigit (Nat.isDigit_of_mem_toDigits (by decide) (by decide) hmem)
    rcases List.mem_append.mp hc with haddr | hlen
    · rcases mem_ipv4String haddr with hd | rfl
      · exact Text.not_isWhitespace_of_isDigit hd
      · decide
    · cases h : r.len with
      | none =>
        rw [h] at hlen
        cases hlen
      | some n =>
        rw [h] at hlen
        rcases List.mem_cons.mp hlen with rfl | hn
        · decide
        · exact hdigit n hn

theorem words_word : ∀ p ∈ r.words, Text.Word p.2 := by
  have hinet : Text.Word "inet".toList := word_of_all (by decide) (by decide)
  intro p hp
  simp only [AddrRow.words, List.mem_cons, List.mem_map] at hp
  rcases hp with rfl | rfl | rfl | ⟨⟨n, w⟩, -, rfl⟩
  · exact r.iface.2
  · exact hinet
  · exact cidr_word r
  · exact w.2

theorem split_line (r : AddrRow) : Text.splitWhitespace r.line =
    (Nat.toDigits 10 r.index ++ [':']) :: r.iface.1 :: "inet".toList :: r.cidr :: r.more.map (·.2.1) := by
  have hindex : Text.Word (Nat.toDigits 10 r.index ++ [':']) := by
    refine ⟨by simp, fun c hc => ?_⟩
    rcases List.mem_append.mp hc with hd | hcolon
    · exact Text.not_isWhitespace_of_isDigit (Nat.isDigit_of_mem_toDigits (by decide) (by decide) hd)
    · rw [List.mem_singleton.mp hcolon]
      decide
  unfold AddrRow.line
  rw [Text.splitWhitespace_spaced words_word, Text.splitWhitespace_word hindex]
  simp [AddrRow.words]

/-- What is in front of the length is the address. -/
theorem cidr_head (r : AddrRow) : (r.cidr.splitOn '/').head? = some (ipv4String r.addr).toList := by
  have hslash : '/' ∉ (ipv4String r.addr).toList := by
    intro hmem
    rcases mem_ipv4String hmem with hd | hdot
    · cases hd
    · cases hdot
  unfold AddrRow.cidr
  cases r.len with
  | none =>
    rw [Option.elim_none, List.append_nil, Text.splitOn_of_not_mem hslash]
    rfl
  | some n =>
    rw [Option.elim_some, List.splitOn_append_cons_self, Text.splitOn_of_not_mem hslash]
    rfl

theorem name_eq_inet : r.name = "inet" ↔ r.iface.1 = "inet".toList := by
  unfold AddrRow.name Word.string
  rw [← String.toList_inj, String.toList_ofList]

/-- A line has the name and the address of its row, but for the name that is the word in front of the
address: what follows that is not an address. -/
theorem readLine_line (r : AddrRow) : readLine r.line = if r.name = "inet" then none else some (r.name, r.addr) := by
  have hindex : Nat.toDigits 10 r.index ++ [':'] ≠ "inet".toList := by
    intro heq
    have hcolon : ':' ∈ "inet".toList := heq ▸ List.mem_append_right _ (List.mem_singleton_self ':')
    revert hcolon
    decide
  have hword : parseIpv4 (String.ofList "inet".toList) = none := by decide
  unfold readLine
  dsimp only
  rw [split_line, if_neg (by simp), List.findIdx?_cons, if_neg (by simpa using hindex), List.findIdx?_cons]
  by_cases hname : r.iface.1 = "inet".toList
  · rw [if_pos (by simpa using hname), if_pos (name_eq_inet.mpr hname)]
    have hhead : ("inet".toList.splitOn '/').head? = some "inet".toList := by decide
    simp only [Option.map_some, Option.bind_eq_bind, Option.bind_some, List.getElem?_cons_succ, List.getElem?_cons_zero,
      Nat.zero_add, hhead, hword, Option.bind_none]
  · rw [if_neg (by simpa using hname), if_neg fun h => hname (name_eq_inet.mp h), List.findIdx?_cons, if_pos (by simp)]
    simp only [Option.map_some, Option.bind_eq_bind, Option.bind_some, List.getElem?_cons_succ, List.getElem?_cons_zero,
      Nat.zero_add, cidr_head, String.ofList_toList, parseIpv4_ipv4String]
    rfl

/-- The lines are put into the map one by one. -/
theorem foldl_addLine (ls : List (List Char)) (map : List (String × List (BitVec 32))) :
    ls.foldl addLine map = (ls.filterMap readLine).foldl (fun m p => Grouped.push p.1 p.2 m) map := by
  induction ls generalizing map with
  | nil => rfl
  | cons l ls ih =>
    rw [List.foldl_cons, ih, List.filterMap_cons]
    unfold addLine
    cases readLine l <;> rfl

/-- The names and addresses that the lines of a table have. -/
def Tables.pairs (t : Tables) : List (String × BitVec 32) :=
  (t.addrs.filter (·.name ≠ "inet")).map fun r => (r.name, r.addr)

theorem filterMap_lines (t : Tables) : (t.addrs.map (·.line)).filterMap readLine = t.pairs := by
  unfold Tables.pairs
  rw [List.filterMap_map, ← List.filterMap_eq_map, ← List.filterMap_eq_filter, List.filterMap_filterMap]
  refine List.filterMap_congr fun r _ => ?_
  have hread := readLine_line r
  by_cases hname : r.name = "inet" <;> simp [hread, hname, Option.guard]

theorem valuesOf_pairs (t : Tables) (iface : String) : Grouped.valuesOf iface t.pairs = t.addrsOf iface := by
  unfold Grouped.valuesOf Tables.pairs Tables.addrsOf
  rw [List.filter_map, List.map_map, List.filter_filter]
  simp [Function.comp_def]

/-- No line of a table has a line feed in it, or ends with a carriage return. -/
theorem plain_line (r : AddrRow) : ∀ c ∈ r.line, c = ' ' ∨ Text.isWhitespace c = false := by
  intro c hc
  unfold AddrRow.line at hc
  rcases List.mem_append.mp hc with hindex | hwords
  · rcases List.mem_append.mp hindex with hd | hcolon
    · exact .inr (Text.not_isWhitespace_of_isDigit (Nat.isDigit_of_mem_toDigits (by decide) (by decide) hd))
    · rw [List.mem_singleton.mp hcolon]
      exact .inr (by decide)
  · rcases Text.mem_spaced hwords with hspace | ⟨p, hp, hmem⟩
    · exact .inl hspace
    · exact .inr ((words_word p hp).2 c hmem)

theorem lines_text {ls : List (List Char)} (h : ∀ l ∈ ls, ∀ c ∈ l, c = ' ' ∨ Text.isWhitespace c = false) :
    Text.lines (text ls).toList = ls := by
  have hno {l : List Char} (hl : l ∈ ls) {d : Char} (hd : d ≠ ' ') (hblank : Text.isWhitespace d = true) : d ∉ l := by
    intro hmem
    rcases h l hl d hmem with hspace | hword
    · exact hd hspace
    · rw [hword] at hblank
      cases hblank
  unfold text
  rw [String.toList_ofList]
  refine Text.lines_flatMap (fun l hl => hno hl (by decide) (by decide)) fun l hl hlast => ?_
  exact hno hl (d := '\r') (by decide) (by decide) (List.mem_of_getLast? hlast)

/-- The interfaces that are read from a table. -/
theorem interfaces_print (t : Tables) : interfaces t.print = (Grouped.group t.pairs).map fun p =>
    { name := p.1, ipv4 := p.2, isDefaultRoute := defaultRouteIface t.print.route = some p.1 } := by
  have hplain : ∀ l ∈ t.addrs.map (·.line), ∀ c ∈ l, c = ' ' ∨ Text.isWhitespace c = false := by
    intro l hl
    obtain ⟨r, -, rfl⟩ := List.mem_map.mp hl
    exact plain_line r
  have haddr : t.print.addr = some (text (t.addrs.map (·.line))) := rfl
  unfold interfaces
  rw [haddr]
  dsimp only
  rw [lines_text hplain, foldl_addLine, filterMap_lines]
  rfl

/-- An interface is found by its name, with its addresses. -/
theorem find_interfaces (t : Tables) (iface : String) :
    ((interfaces t.print).find? (·.name = iface)).elim [] (·.ipv4) = t.addrsOf iface := by
  rw [interfaces_print, List.find?_map, ← valuesOf_pairs, ← Grouped.find_group]
  simp only [Function.comp_def]
  cases (Grouped.group t.pairs).find? (·.1 = iface) <;> simp

theorem firstIpv4_print (t : Tables) (iface : String) : firstIpv4 t.print iface = (t.addrsOf iface).head? := by
  rw [← find_interfaces t iface]
  unfold firstIpv4
  cases (interfaces t.print).find? (·.name = iface) <;> rfl

theorem ifaceHasIpv4_print (t : Tables) (iface : String) (ip : BitVec 32) :
    ifaceHasIpv4 t.print iface ip = true ↔ ip ∈ t.addrsOf iface := by
  rw [← find_interfaces t iface]
  unfold ifaceHasIpv4
  cases (interfaces t.print).find? (·.name = iface) <;> simp

theorem afterDev_append {before : List (List Char)} (h : ∀ w ∈ before, w ≠ "dev".toList) (d : List Char)
    (rest : List (List Char)) : afterDev (before ++ "dev".toList :: d :: rest) = some d := by
  induction before with
  | nil => rfl
  | cons w before ih =>
    obtain ⟨hw, hbefore⟩ := List.forall_mem_cons.mp h
    rw [List.cons_append, afterDev, if_neg hw, ih hbefore]

theorem split_route (r : RouteRow) : Text.splitWhitespace r.line = "default".toList :: r.words := by
  have hdev : Text.Word "dev".toList := word_of_all (by decide) (by decide)
  have hdefault : Text.Word "default".toList := word_of_all (by decide) (by decide)
  have hwords : ∀ p ∈ r.words.map ((0, ·) : List Char → ℕ × List Char), Text.Word p.2 := by
    intro p hp
    obtain ⟨w, hw, rfl⟩ := List.mem_map.mp hp
    simp only [RouteRow.words, List.mem_append, List.mem_cons, List.mem_map] at hw
    rcases hw with ⟨w, -, rfl⟩ | rfl | rfl | ⟨w, -, rfl⟩
    · exact w.2
    · exact hdev
    · exact r.device.2
    · exact w.2
  unfold RouteRow.line
  rw [Text.splitWhitespace_append_blank (by simp [Text.isWhitespace]), Text.splitWhitespace_spaced hwords,
    Text.splitWhitespace_word hdefault]
  simp [Function.comp_def]

/-- The default route is read from the first line. -/
theorem defaultRouteIface_print (t : Tables) : defaultRouteIface t.print.route = t.device := by
  have hword : "default".toList ≠ "dev".toList := by decide
  unfold defaultRouteIface Tables.print Tables.device text
  rw [Option.bind_some, String.toList_ofList]
  cases t.routes with
  | nil => rfl
  | cons r rs =>
    have hvia : ∀ w ∈ r.via.map Subtype.val, w ≠ "dev".toList := by
      intro w hw
      obtain ⟨v, hv, rfl⟩ := List.mem_map.mp hw
      exact r.via_no_dev v hv
    rw [List.map_cons, List.flatMap_cons, List.append_assoc, List.singleton_append,
      Text.splitWhitespace_append_cons (by decide), split_route, List.cons_append, afterDev, if_neg hword]
    unfold RouteRow.words
    rw [List.append_assoc, List.cons_append, List.cons_append, afterDev_append hvia]
    rfl

end Rows

/-- The interfaces that are read are those with an address, each once, in the order of their names; an
interface has its addresses in the order of the table, and the one that the first default route leaves by is marked.
An interface that is called `inet` is not among them. -/
theorem interfaces_of_tables (t : Tables) :
    (interfaces t.print).Pairwise (fun i j => i.name < j.name) ∧
    ∀ i, i ∈ interfaces t.print ↔
      i.ipv4 = t.addrsOf i.name ∧ i.ipv4 ≠ [] ∧ i.isDefaultRoute = decide (t.device = some i.name) := by
  have hread : interfaces t.print = (Grouped.group t.pairs).map fun p =>
      { name := p.1, ipv4 := p.2, isDefaultRoute := t.device = some p.1 } := by
    rw [← defaultRouteIface_print t]
    exact interfaces_print t
  rw [hread]
  refine ⟨List.Pairwise.map _ (fun _ _ h => h) (Grouped.sorted_group t.pairs), fun i => ?_⟩
  rw [List.mem_map]
  constructor
  · rintro ⟨⟨name, ips⟩, hmem, rfl⟩
    obtain ⟨hips, hne⟩ := Grouped.mem_group.mp hmem
    exact ⟨hips.trans (valuesOf_pairs t name), hne, rfl⟩
  · rintro ⟨hips, hne, hroute⟩
    refine ⟨(i.name, i.ipv4), Grouped.mem_group.mpr ⟨hips.trans (valuesOf_pairs t i.name).symm, hne⟩, ?_⟩
    rw [← hroute]

/-! ## The addresses of a pass -/

/-- What a host has when a rule is resolved: the commands run once for the default route, and once more for
each question about an address. -/
structure Asked where
  lookup : String → Option (BitVec 32)
  forDefault : Tables
  forHas : Tables
  forFirst : Tables

def Asked.env (a : Asked) : HostEnv := hostEnv a.lookup a.forDefault.print a.forHas.print a.forFirst.print

@[simp] theorem env_firstIpv4 (a : Asked) : a.env.firstIpv4 = firstIpv4 a.forFirst.print := by
  unfold Asked.env hostEnv
  rfl

@[simp] theorem env_ifaceHasIpv4 (a : Asked) : a.env.ifaceHasIpv4 = ifaceHasIpv4 a.forHas.print := by
  unfold Asked.env hostEnv
  rfl

/-- The interface of a rule. -/
def Asked.iface (a : Asked) (rule : ForwardRule) : Option String :=
  rule.iface.elim a.forDefault.device fun i => if validIfaceName i then some i else none

/-- The source of a rule: its own if the interface has it, and otherwise the first of the interface. -/
def Asked.source (a : Asked) (iface : String) : ForwardSource → Option (BitVec 32)
  | .auto => (a.forFirst.addrsOf iface).head?
  | .ip ip => if (a.forHas.addrsOf iface).contains ip then some ip else (a.forFirst.addrsOf iface).head?

section Pass

variable {a : Asked} {rule : ForwardRule} {iface : String} {ip : BitVec 32} {source : ForwardSource}

theorem resolveIface_asked : resolveIface a.env rule = .ok iface ↔ a.iface rule = some iface := by
  have hroute : a.env.defaultRouteIface = a.forDefault.device := defaultRouteIface_print a.forDefault
  rw [resolveIface_eq_ok]
  unfold ifaceOf Asked.iface
  rw [hroute]
  cases rule.iface <;> rfl

theorem resolveSource_asked : resolveSource a.env iface source = .ok ip ↔ a.source iface source = some ip := by
  have hfirst : a.env.firstIpv4 iface = (a.forFirst.addrsOf iface).head? := by
    rw [env_firstIpv4, firstIpv4_print]
  have hor (e : String) (o : Option (BitVec 32)) : orError e o = .ok ip ↔ o = some ip := by
    cases o <;> simp [orError]
  cases source with
  | auto =>
    unfold resolveSource Asked.source
    rw [hor, hfirst]
  | ip own =>
    have hhas : a.env.ifaceHasIpv4 iface own = true ↔ (a.forHas.addrsOf iface).contains own = true := by
      rw [env_ifaceHasIpv4, ifaceHasIpv4_print, List.contains_iff_mem]
    unfold resolveSource Asked.source
    dsimp only
    by_cases hown : (a.forHas.addrsOf iface).contains own = true
    · rw [if_pos (hhas.mpr hown), if_pos hown]
      simp
    · rw [if_neg fun h => hown (hhas.mp h), if_neg hown, hor, hfirst]

/-- A source is an address of the interface. -/
theorem source_mem (h : a.source iface source = some ip) :
    ip ∈ a.forHas.addrsOf iface ∨ ip ∈ a.forFirst.addrsOf iface := by
  cases source with
  | auto => exact .inr (List.mem_of_head? h)
  | ip own =>
    unfold Asked.source at h
    dsimp only at h
    by_cases hown : (a.forHas.addrsOf iface).contains own = true
    · rw [if_pos hown] at h
      cases h
      exact .inl (List.contains_iff_mem.mp hown)
    · rw [if_neg hown] at h
      exact .inr (List.mem_of_head? h)

/-- What a pass resolves, by what the host has. -/
theorem mem_resolved {asked : ForwardRule → Asked} {s : State} {rf : ResolvedForward} :
    rf ∈ (resolveAll (fun r => (asked r).env) s).resolved ↔ ∃ rule ∈ s.forwards,
      rf.proto = rule.proto ∧ rf.listen = rule.listen ∧ rf.destPort = rule.destPort ∧
      (asked rule).iface rule = some rf.iface ∧
      (resolveIpv4 (asked rule).env rule.destHost).or (s.resolvedIp rule.id) = some rf.remoteIp ∧
      forbiddenForwardTarget rf.remoteIp = none ∧ (asked rule).source rf.iface rule.source = some rf.sourceIp := by
  rw [mem_resolveAll]
  refine exists_congr fun rule => and_congr_right fun _ => ?_
  rw [resolveOne_eq_ok]
  simp only [resolveIface_asked, resolveSource_asked, resolveTarget_eq_ok, checkTarget_eq_ok]
  constructor
  · rintro ⟨iface, remoteIp, sourceIp, hiface, htarget, hcheck, hsource, rfl⟩
    exact ⟨rfl, rfl, rfl, hiface, htarget, hcheck, hsource⟩
  · rintro ⟨hproto, hlisten, hdest, hiface, htarget, hcheck, hsource⟩
    refine ⟨rf.iface, rf.remoteIp, rf.sourceIp, hiface, htarget, hcheck, hsource, ?_⟩
    rw [← hproto, ← hlisten, ← hdest]

/-- A packet that the postrouting chain changes is for some forward. -/
theorem postrouting_changes {fs : List ResolvedForward} {p p' : NftNat.Packet} (h : (postroutingChain fs).Makes p p')
    (hother : p' ≠ p) : ∃ f ∈ fs, ∃ port, p.dport = some port ∧ f.sendsTo p.l4proto p.daddr port = true ∧
      p' = { p with saddr := f.sourceIp } := by
  have hkept (hnone : NftNat.action (postroutingChain fs).rules p = none) : False := by
    unfold NftNat.Chain.Makes at h
    rw [hnone] at h
    exact hother h
  cases hport : p.dport with
  | none => exact (hkept (Path.postrouting_action_none fs hport)).elim
  | some port =>
    cases hfind : fs.find? (·.sendsTo p.l4proto p.daddr port) with
    | none =>
      rw [postrouting_action fs hport, hfind] at hkept
      exact (hkept rfl).elim
    | some f =>
      have hsends : f.sendsTo p.l4proto p.daddr port = true := by simpa using List.find?_some hfind
      have hmade := (postrouting_makes hport hfind).mp h
      rw [hport] at hmade
      exact ⟨f, List.mem_of_find?_eq_some hfind, port, rfl, hsends, hmade⟩

end Pass

/-- In the table that a pass installs, the host has the sources that packets get: a packet that leaves under
another source is on its way to the target of a rule of the store, and the source is the one that the rule asks for, an
address that the host had on the interface of that rule when it was resolved. -/
theorem source_is_own (asked : ForwardRule → Asked) (s : State) (p p' : NftNat.Packet)
    (hmakes : (postroutingChain (resolveAll (fun r => (asked r).env) s).resolved).Makes p p') (hother : p' ≠ p) :
    ∃ rule ∈ s.forwards, ∃ iface, (asked rule).iface rule = some iface ∧
      (resolveIpv4 (asked rule).env rule.destHost).or (s.resolvedIp rule.id) = some p.daddr ∧
      p.dport.any rule.destPort.contains = true ∧
      p' = { p with saddr := p'.saddr } ∧ (asked rule).source iface rule.source = some p'.saddr ∧
      (p'.saddr ∈ (asked rule).forHas.addrsOf iface ∨ p'.saddr ∈ (asked rule).forFirst.addrsOf iface) := by
  obtain ⟨f, hf, port, hport, hsends, rfl⟩ := postrouting_changes hmakes hother
  obtain ⟨rule, hrule, -, -, hdest, hiface, htarget, -, hsource⟩ := mem_resolved.mp hf
  simp only [ResolvedForward.sendsTo, Bool.and_eq_true, decide_eq_true_eq] at hsends
  obtain ⟨⟨hdaddr, -⟩, hcontains⟩ := hsends
  refine ⟨rule, hrule, f.iface, hiface, hdaddr ▸ htarget, ?_, rfl, hsource, source_mem hsource⟩
  rw [hport, ← hdest]
  exact hcontains

theorem eth0_is_word : Text.Word "eth0".toList := word_of_all (by decide) (by decide)

def eth0Word : Word := ⟨"eth0".toList, eth0_is_word⟩

/-- A host with one interface, by which its default route leaves. -/
def office : Tables where
  routes := [⟨[], eth0Word, [], List.forall_mem_nil _⟩]
  addrs := [⟨2, eth0Word, 3, ipv4 10 0 0 5, some 24, []⟩]

def atOffice : Asked := ⟨fun _ => none, office, office, office⟩

def webOnly : State := { State.default with forwards := [webRule] }

/-- A packet whose destination has been rewritten, and what becomes of it. -/
def toWeb : NftNat.Packet := ⟨"eth0", ipv4 203 0 113 7, ipv4 10 0 0 9, 6, some 8443, .new⟩

def fromOffice : NftNat.Packet := { toWeb with saddr := ipv4 10 0 0 5 }

theorem web_source_is_own :
    (postroutingChain (resolveAll (fun _ => atOffice.env) webOnly).resolved).Makes toWeb fromOffice ∧
    fromOffice ≠ toWeb ∧ ∃ rule ∈ webOnly.forwards, ∃ iface, atOffice.iface rule = some iface ∧
      atOffice.source iface rule.source = some fromOffice.saddr := by
  have hresolved : (resolveAll (fun _ => atOffice.env) webOnly).resolved =
      [⟨.tcp, "eth0", .single 443, ipv4 10 0 0 9, .single 8443, ipv4 10 0 0 5⟩] := by decide +kernel
  have hother : fromOffice ≠ toWeb := by decide
  have hmakes : (postroutingChain (resolveAll (fun _ => atOffice.env) webOnly).resolved).Makes toWeb fromOffice := by
    rw [hresolved]
    exact (postrouting_makes rfl (by rfl)).mpr rfl
  obtain ⟨rule, hrule, iface, hiface, -, -, -, hsource, -⟩ :=
    source_is_own (fun _ => atOffice) webOnly toWeb fromOffice hmakes hother
  exact ⟨hmakes, hother, rule, hrule, iface, hiface, hsource⟩

end Ipgate.Netinfo
