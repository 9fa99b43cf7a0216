-- SUMMARY: The NAT table that the kernel accepted last, and what a pass makes of it.
import Ipgate.Agent.Api.Forwards

/-!
# The NAT table

The calls that install the NAT table succeed or fail as the host has it. Beside the host
stands the table that was accepted last: a call that fails leaves it, as the script of a
call takes effect as a whole or not at all.
-/

namespace Ipgate

open Net Act

/-- A host with the NAT table it accepted last. -/
structure Tabled (κ : Type) where
  host : κ
  table : List ResolvedForward

section Tabled

variable {κ : Type}

/-- A call that does not concern the table. -/
def Tabled.call {α : Type} (f : κ → α × κ) (t : Tabled κ) : α × Tabled κ := ((f t.host).1, { t with host := (f t.host).2 })

/-- A call that is to replace the table. -/
def Tabled.replace (table : List ResolvedForward) (f : κ → Except String Unit × κ) (t : Tabled κ) :
    Except String Unit × Tabled κ :=
  match f t.host with
  | (.ok (), k) => (.ok (), ⟨k, table⟩)
  | (.error e, k) => (.error e, ⟨k, t.table⟩)

def tabled (H : Host κ) : Host (Tabled κ) where
  apply c entries := Tabled.call (H.apply c entries)
  add entry := Tabled.call (H.add entry)
  remove target := Tabled.call (H.remove target)
  list := Tabled.call H.list
  save s := Tabled.call (H.save s)

def tabledNat (N : NatBackend κ) : NatBackend (Tabled κ) where
  applyNat resolved := Tabled.replace resolved (N.applyNat resolved)
  flushNat := Tabled.replace [] N.flushNat

/-- The host's answer to the installation of the rules. -/
def installAnswer (N : NatBackend κ) (resolved : List ResolvedForward) (k : κ) : Except String Unit × κ :=
  if resolved.isEmpty then N.flushNat k else N.applyNat resolved k

variable {H : Host κ} {N : NatBackend κ} {w : World (Tabled κ)} {resolved : List ResolvedForward}
variable {env : ForwardRule → HostEnv}

theorem Tabled.replace_host {table : List ResolvedForward} {f : κ → Except String Unit × κ} {t : Tabled κ} :
    (Tabled.replace table f t).2.host = (f t.host).2 := by
  unfold Tabled.replace
  split
  · next h => rw [h]
  · next h => rw [h]

theorem installNat_tabled : installNat (tabledNat N) resolved w =
    ((installAnswer N resolved w.host.host).1,
      { w with host := ((Tabled.replace resolved (installAnswer N resolved)) w.host).2 }) := by
  unfold installNat installAnswer
  cases resolved with
  | nil =>
    simp only [tabledNat, List.isEmpty_nil, if_true, Tabled.replace]
    cases N.flushNat w.host.host with
    | mk r k =>
      cases r with
      | ok => rfl
      | error e => rfl
  | cons rf rest =>
    simp only [tabledNat, List.isEmpty_cons, Bool.false_eq_true, if_false, Tabled.replace]
    cases N.applyNat (rf :: rest) w.host.host with
    | mk r k =>
      cases r with
      | ok => rfl
      | error e => rfl

/-- A save does not concern the table. -/
theorem saveStore_tabled : saveStore (tabled H) w = ((H.save w.store w.host.host).1.mapError internal,
    { w with host := { w.host with host := (H.save w.store w.host.host).2 } }) := rfl

/-- A pass installs what the rules resolve to and keeps the addresses, or changes nothing. -/
def Passes (N : NatBackend κ) (env : ForwardRule → HostEnv) (w : World (Tabled κ)) (r : Except String Unit)
    (w' : World (Tabled κ)) : Prop :=
  let res := resolveAll env w.store
  match (installAnswer N res.resolved w.host.host).1 with
  | .ok () => r = .ok () ∧ w'.store = w.store.setResolved res.map ∧ w'.host.table = res.resolved
  | .error e => r = .error e ∧ w'.store = w.store ∧ w'.host.table = w.host.table

theorem wp_commitForwards : wp (commitForwards (tabled H) (tabledNat N) (resolveAll env w.store)) (Passes N env w) w := by
  unfold commitForwards
  rw [wp_bind]
  unfold wp Passes
  rw [installNat_tabled]
  unfold Tabled.replace
  dsimp only
  cases installAnswer N (resolveAll env w.store).resolved w.host.host with
  | mk r k =>
    cases r with
    | ok => exact ⟨rfl, rfl, rfl⟩
    | error e => exact ⟨rfl, rfl, rfl⟩

theorem wp_applyNow_tabled : wp (applyNow (tabled H) (tabledNat N) env)
    (fun r w' => Passes N env w (r.map fun _ => ()) w') w := by
  simp only [applyNow, wp_bind, wp_get, andThen_ok]
  apply wp_mono wp_commitForwards
  intro r w' h
  cases r with
  | ok => exact h
  | error e => exact h

theorem wp_applyForwards : wp (applyForwards (tabled H) (tabledNat N) env)
    (fun r w' => ∃ r', r = r'.mapError nftFailure ∧ Passes N env w r' w') w := by
  simp only [applyForwards, wp_bind, wp_mapErr]
  apply wp_mono wp_applyNow_tabled
  intro r w' h
  cases r with
  | ok n => exact ⟨.ok (), rfl, h⟩
  | error e => exact ⟨.error e, rfl, h⟩

end Tabled

/-! ### A host with a script -/

/-- The answer to a call: as the script says, and that all is well when the script is over. -/
def answered : List Bool → Except String Unit × List Bool
  | false :: answers => (.error "refused", answers)
  | true :: answers => (.ok (), answers)
  | [] => (.ok (), [])

def answerNat : NatBackend (List Bool) where
  applyNat _ := answered
  flushNat := answered

/-- One interface with one address, and no names. -/
def eth0 : HostEnv where
  defaultRouteIface := some "eth0"
  lookup _ := none
  firstIpv4 _ := some (ipv4 198 51 100 1)
  ifaceHasIpv4 _ _ := true

end Ipgate
