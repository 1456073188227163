import DatawerxMesh.Dns.Placement
import DatawerxMesh.Edge.HostCIDR

/-!
# Addresses of edge devices

`AllocateDeviceIPs` of `pkg/edge/allocate.go`.  Devices with a pinned address are served first, and
the hashed addresses of the others flow around the pins.
-/

namespace DatawerxMesh.Edge

open Go Sorting Probing List

/-- The function of the edge allocator that sorts a slice. -/
inductive Site where
  | sortClaims

/-- Probes beyond one for each claim. -/
def maxProbeBudget : Nat := 64

/-- A device and the address it pins, if any. -/
structure DeviceClaim where
  key : Str
  address : Str
  deriving DecidableEq

/-- Why an address cannot be pinned. -/
inductive PinError where
  | address (error : AddressError)
  | parse (host : Str)
  | outside (ip : IP) (ipnet : IPNet)
  | reserved (ip : IP)
  deriving DecidableEq

/-- Error texts of `pinnedIP`, with `%q` given by `quote`. -/
def PinError.text (quote : Str → Str) : PinError → Str
  | address error => error.text quote
  | parse host => "invalid CIDR address: " ++ host
  | outside ip ipnet => ip.string ++ " is outside the edge CIDR " ++ ipnet.string
  | reserved ip => ip.string ++ " is the reserved network address"

/-- The errors of `AllocateDeviceIPs`.  A parsed mask is canonical, so that of other masks is left
out. -/
inductive AllocateError where
  | parse (edgeCIDR trimmed : Str)
  | tooSmall (edgeCIDR : Str) (size count : Nat)
  | pin (device : Str) (error : PinError)
  | pinTaken (device address : Str)
  | exhausted (edgeCIDR device : Str)
  deriving DecidableEq

/-- Error texts of `AllocateDeviceIPs`, with `%q` given by `quote`. -/
def AllocateError.text (quote : Str → Str) : AllocateError → Str
  | parse edgeCIDR trimmed =>
    "parsing edge CIDR " ++ quote edgeCIDR ++ ": invalid CIDR address: " ++ trimmed
  | tooSmall edgeCIDR size count =>
    "edge CIDR " ++ quote edgeCIDR ++ " (" ++ itoa size ++
      " addresses) too small for " ++ itoa count ++ " devices"
  | pin device error => "device " ++ quote device ++ " address pin: " ++ error.text quote
  | pinTaken device address =>
    "device " ++ quote device ++ " pins address " ++ address ++
      " already claimed by another device"
  | exhausted edgeCIDR device =>
    "edge CIDR " ++ quote edgeCIDR ++ ": exhausted probe budget allocating device " ++
      quote device

/-- The head of a key. -/
def shortKey (k : Str) : Str := if k.length ≤ 8 then k else k.take 8 ++ "…"

/-- The comparison of `sortClaims`. -/
def lessClaim (a b : DeviceClaim) : Bool := less a.key b.key

theorem lessClaim_orders : Orders lessClaim DeviceClaim.key :=
  Orders.onField less_orders

/-- The claims in the order they are served. -/
def sortClaims (go : Runtime Site) (claims : List DeviceClaim) : List DeviceClaim :=
  go.sortSlice .sortClaims lessClaim claims

/-- The address that a claim pins. -/
def pinnedIP (addr : Str) (ipnet : IPNet) : Except PinError IP :=
  match hostCIDR addr with
  | .error error => .error (.address error)
  | .ok host =>
    match parseCIDR host with
    | none => .error (.parse host)
    | some (ip, _) =>
      if ipnet.contains ip = false then .error (.outside ip ipnet)
      else if ip.equal ipnet.ip then .error (.reserved ip)
      else
        match ip.to4 with
        | some v4 => .ok (.four v4)
        | none => .ok (.sixteen ip.to16)

/-- `allocateOne`, the same walk as in `pkg/dns`. -/
def allocateOne : Str → Dns.AddressRange → Nat → List Str → Option Str := Dns.allocateOne

/-- The map from device keys to addresses. -/
abbrev Allocation := AList fun _ : Str => Str

variable {out : Allocation} {claims : List DeviceClaim} {ipnet : IPNet}

/-- The first loop of `AllocateDeviceIPs`, over the pins. -/
def reservePins (ipnet : IPNet) (used : List Str) (out : Allocation) :
    List DeviceClaim → Except AllocateError (List Str × Allocation)
  | [] => .ok (used, out)
  | c :: claims =>
    if trimSpace c.address = [] then reservePins ipnet used out claims
    else
      match pinnedIP c.address ipnet with
      | .error error => .error (.pin (shortKey c.key) error)
      | .ok ip =>
        let s := ip.string
        if s ∈ used then .error (.pinTaken (shortKey c.key) s)
        else reservePins ipnet (s :: used) (out.insert c.key s) claims

/-- The second loop of `AllocateDeviceIPs`, over the other devices. -/
def placeDevices (edgeCIDR : Str) (range : Dns.AddressRange) (budget : Nat) (used : List Str)
    (out : Allocation) : List DeviceClaim → Except AllocateError Allocation
  | [] => .ok out
  | c :: claims =>
    if trimSpace c.address ≠ [] then placeDevices edgeCIDR range budget used out claims
    else
      match allocateOne c.key range budget used with
      | none => .error (.exhausted edgeCIDR (shortKey c.key))
      | some s => placeDevices edgeCIDR range budget (s :: used) (out.insert c.key s) claims

/-- An address for every device. -/
def allocateDeviceIPs (go : Runtime Site) (edgeCIDR : Str) (claims : List DeviceClaim) :
    Except AllocateError Allocation :=
  match parseNet (trimSpace edgeCIDR) with
  | none => .error (.parse edgeCIDR (trimSpace edgeCIDR))
  | some ipnet =>
    let range := Dns.AddressRange.ofNet ipnet
    let claims := sortClaims go claims
    if range.size < claims.length + 1 then
      .error (.tooSmall edgeCIDR range.size claims.length)
    else
      match reservePins ipnet [] ∅ claims with
      | .error error => .error error
      | .ok (used, out) =>
        placeDevices edgeCIDR range (claims.length + maxProbeBudget) used out claims

theorem allocateDeviceIPs_eq (left_run right_run : Runtime Site) (edgeCIDR : Str)
    {left right : List DeviceClaim} (distinct : (left.map DeviceClaim.key).Nodup)
    (perm : left.Perm right) :
    allocateDeviceIPs left_run edgeCIDR left = allocateDeviceIPs right_run edgeCIDR right := by
  have own : Set.InjOn DeviceClaim.key {c | c ∈ left} := fun _ left_mem _ right_mem same =>
    inj_on_of_nodup_map distinct left_mem right_mem same
  have same : sortClaims left_run left = sortClaims right_run right :=
    left_run.sortSlice_eq right_run _ lessClaim_orders own perm
  rw [allocateDeviceIPs, allocateDeviceIPs, same]

theorem pinnedIP_spec {addr : Str} {ip : IP} (accepted : pinnedIP addr ipnet = .ok ip) :
    ∃ named, Names addr named ∧ ip.to16 = named.to16 ∧ ipnet.contains ip = true ∧
      ip.to16 ≠ ipnet.ip.to16 := by
  unfold pinnedIP at accepted
  cases host_eq : hostCIDR addr with
  | error error => simp [host_eq] at accepted
  | ok host =>
    obtain ⟨named, names, rfl⟩ := hostCIDR_eq_ok.mp host_eq
    simp only [host_eq, parseCIDR_hostRoute] at accepted
    split at accepted
    case isTrue outside => cases accepted
    case isFalse inside =>
      split at accepted
      case isTrue network => cases accepted
      case isFalse other =>
        have apart : named.to16 ≠ ipnet.ip.to16 := by simpa [IP.equal, IP.to16] using other
        rw [Bool.not_eq_false] at inside
        split at accepted
        case h_1 v4 view =>
          obtain rfl := Except.ok.inj accepted
          have same : (IP.four v4).to16 = named.to16 := (to16_of_to4 view).symm
          refine ⟨named, names, same, ?_, same ▸ apart⟩
          rw [← ipnet.contains_to16, same]
          exact inside
        case h_2 view =>
          obtain rfl := Except.ok.inj accepted
          exact ⟨named, names, rfl, inside, apart⟩

/-- The claim names an address. -/
def DeviceClaim.pinned (c : DeviceClaim) : Bool := decide (trimSpace c.address ≠ [])

/-- The texts that a device may get, in the order in which they are tried. -/
def DeviceClaim.candidates (ipnet : IPNet) (budget : Nat) (c : DeviceClaim) : List Str :=
  if c.pinned then
    match pinnedIP c.address ipnet with
    | .ok ip => [ip.string]
    | .error _ => []
  else (Dns.AddressRange.ofNet ipnet).candidates budget c.key

/-- The order in which devices are placed. -/
def placementOrder (claims : List DeviceClaim) : List DeviceClaim :=
  claims.filter DeviceClaim.pinned ++ claims.filter (fun c => !c.pinned)

theorem placementOrder_perm (claims : List DeviceClaim) : (placementOrder claims).Perm claims :=
  filter_append_perm _ _

theorem placementOrder_of_unpinned (unpinned : ∀ claim ∈ claims, claim.pinned = false) :
    placementOrder claims = claims := by
  have no_pins : claims.filter DeviceClaim.pinned = [] :=
    filter_eq_nil_iff.mpr fun claim mem => by simp [unpinned claim mem]
  have all_others : claims.filter (fun claim => !claim.pinned) = claims :=
    filter_eq_self.mpr fun claim mem => by simp [unpinned claim mem]
  rw [placementOrder, no_pins, all_others, nil_append]

/-- The entries of the result for a placement of claims. -/
def entries (placed : List (DeviceClaim × Str)) : List (Str × Str) :=
  placed.map fun entry => (entry.1.key, entry.2)

theorem allocateOne_eq (key : Str) (range : Dns.AddressRange) (budget : Nat) (used : List Str) :
    allocateOne key range budget used = firstFree used (range.candidates budget key) :=
  Dns.allocateOne_eq key range budget used

theorem reservePins_eq_ok (budget : Nat) {used used' : List Str} {out' : Allocation} :
    reservePins ipnet used out claims = .ok (used', out') ↔
      ∃ placed, place (DeviceClaim.candidates ipnet budget) used
          (claims.filter DeviceClaim.pinned) = some placed ∧
        used' = (placed.map Prod.snd).reverse ++ used ∧ out' = fill out (entries placed) := by
  induction claims generalizing used out with
  | nil => simp [reservePins, place, fill, entries, eq_comm]
  | cons c claims ih =>
    rw [reservePins]
    by_cases bare : trimSpace c.address = []
    · have unpinned : ¬ c.pinned = true := by simp [DeviceClaim.pinned, bare]
      rw [if_pos bare, ih, filter_cons_of_neg unpinned]
    · have is_pinned : c.pinned = true := by simpa [DeviceClaim.pinned] using bare
      rw [if_neg bare, filter_cons_of_pos is_pinned]
      cases pin : pinnedIP c.address ipnet with
      | error error => simp [place, DeviceClaim.candidates, is_pinned, pin, firstFree]
      | ok ip =>
        have only : c.candidates ipnet budget = [ip.string] := by
          simp [DeviceClaim.candidates, is_pinned, pin]
        by_cases taken : ip.string ∈ used
        · simp [place, only, firstFree, taken]
        · have free : firstFree used [ip.string] = some ip.string := by
            simp [firstFree, taken]
          simp only [if_neg taken, ih, place_cons_eq_some, only, free, Option.some.injEq]
          constructor
          · rintro ⟨placed, placed_eq, rfl, rfl⟩
            exact ⟨_, ⟨_, placed, rfl, placed_eq, rfl⟩, by simp, rfl⟩
          · rintro ⟨_, ⟨_, placed, rfl, placed_eq, rfl⟩, rfl, rfl⟩
            exact ⟨placed, placed_eq, by simp, rfl⟩

theorem placeDevices_eq_ok {edgeCIDR : Str} {budget : Nat} {used : List Str} {result : Allocation} :
    placeDevices edgeCIDR (.ofNet ipnet) budget used out claims = .ok result ↔
      ∃ placed, place (DeviceClaim.candidates ipnet budget) used
          (claims.filter fun c => !c.pinned) = some placed ∧
        result = fill out (entries placed) := by
  induction claims generalizing used out with
  | nil => simp [placeDevices, place, fill, entries, eq_comm]
  | cons c claims ih =>
    rw [placeDevices]
    by_cases bare : trimSpace c.address = []
    · have unpinned : c.pinned = false := by simp [DeviceClaim.pinned, bare]
      have hashed : c.candidates ipnet budget =
          (Dns.AddressRange.ofNet ipnet).candidates budget c.key := by
        simp [DeviceClaim.candidates, unpinned]
      rw [if_neg (not_not.mpr bare), allocateOne_eq,
        filter_cons_of_pos (by simp [unpinned]), ← hashed]
      cases free : firstFree used (c.candidates ipnet budget) with
      | none => simp [place, free]
      | some s =>
        refine ih.trans (Iff.symm (exists_place_cons ?_))
        exact free
    · have is_pinned : c.pinned = true := by simpa [DeviceClaim.pinned] using bare
      rw [if_pos bare, ih, filter_cons_of_neg (by simpa using is_pinned)]

/-- A successful allocation places the pinned devices and then the others. -/
theorem allocateDeviceIPs_eq_ok {go : Runtime Site} {edgeCIDR : Str}
    (parsed : parseNet (trimSpace edgeCIDR) = some ipnet) :
    allocateDeviceIPs go edgeCIDR claims = .ok out ↔
      claims.length + 1 ≤ 2 ^ Dns.hostBits ipnet ∧ ∃ placed,
        place (DeviceClaim.candidates ipnet (claims.length + maxProbeBudget)) []
          (placementOrder (sortClaims go claims)) = some placed ∧
        out = fill ∅ (entries placed) := by
  have length_eq : (sortClaims go claims).length = claims.length :=
    (go.sortSlice_arranges _ lessClaim_orders claims).perm.length_eq
  rw [allocateDeviceIPs, parsed]
  dsimp only
  rw [length_eq, Dns.AddressRange.size_ofNet]
  split
  case isTrue small =>
    simp only [reduceCtorEq, false_iff]
    omega
  case isFalse large =>
    have enough : claims.length + 1 ≤ 2 ^ Dns.hostBits ipnet := by omega
    simp only [enough, true_and, placementOrder, place_append_eq_some]
    cases pins : reservePins ipnet [] ∅ (sortClaims go claims) with
    | error error =>
      simp only [reduceCtorEq, false_iff]
      rintro ⟨_, ⟨first, -, first_eq, -, -⟩, -⟩
      have reserved : reservePins ipnet [] ∅ (sortClaims go claims) = .ok (_, _) :=
        (reservePins_eq_ok _).mpr ⟨first, first_eq, rfl, rfl⟩
      rw [pins] at reserved
      cases reserved
    | ok result =>
      obtain ⟨first, first_eq, used_eq, out_eq⟩ :=
        (reservePins_eq_ok (claims.length + maxProbeBudget)).mp pins
      simp only [placeDevices_eq_ok, used_eq, out_eq]
      constructor
      · rintro ⟨second, second_eq, rfl⟩
        refine ⟨_, ⟨first, second, first_eq, second_eq, rfl⟩, ?_⟩
        simp [fill, entries]
      · rintro ⟨_, ⟨first', second, first'_eq, second_eq, rfl⟩, rfl⟩
        obtain rfl := Option.some.inj (first_eq.symm.trans first'_eq)
        exact ⟨second, second_eq, by simp [fill, entries]⟩

section Success

variable {go : Runtime Site} {edgeCIDR : Str} {ipnet : IPNet} {claims : List DeviceClaim}
  {out : Allocation}

theorem DeviceClaim.numberOf_of_mem_candidates {budget : Nat} {c : DeviceClaim} {s : Str}
    (mem : s ∈ c.candidates ipnet budget) :
    let range := Dns.AddressRange.ofNet ipnet
    ∃ off, 0 < off ∧ off < 2 ^ Dns.hostBits ipnet ∧
      range.numberOf s = some (range.baseInt + off) := by
  unfold DeviceClaim.candidates at mem
  split at mem
  case isTrue is_pinned =>
    cases pin : pinnedIP c.address ipnet with
    | error error => simp [pin] at mem
    | ok ip =>
      obtain rfl : s = ip.string := by simpa [pin] using mem
      obtain ⟨-, -, -, inside, other⟩ := pinnedIP_spec pin
      obtain ⟨off, small, number_eq⟩ := Dns.AddressRange.numberOf_of_contains inside
      refine ⟨off, Nat.pos_of_ne_zero ?_, small, number_eq⟩
      rintro rfl
      exact other (Dns.AddressRange.to16_of_numberOf number_eq (Dns.AddressRange.numberOf_ip ipnet))
  case isFalse =>
    rw [← Dns.AddressRange.size_ofNet]
    exact Dns.AddressRange.numberOf_of_mem_candidates (Dns.AddressRange.ofNet_lawful ipnet) mem

theorem DeviceClaim.eq_string_of_mem_candidates {budget : Nat} {c : DeviceClaim} {s : Str}
    (mem : s ∈ c.candidates ipnet budget) :
    ∃ ip : IP, s = ip.string ∧
      (trimSpace c.address ≠ [] → ∃ named, Names c.address named ∧ ip.to16 = named.to16) := by
  unfold DeviceClaim.candidates at mem
  split at mem
  case isTrue is_pinned =>
    cases pin : pinnedIP c.address ipnet with
    | error error => simp [pin] at mem
    | ok ip =>
      obtain ⟨named, names, same, -⟩ := pinnedIP_spec pin
      exact ⟨ip, by simpa [pin] using mem, fun _ => ⟨named, names, same⟩⟩
  case isFalse unpinned =>
    obtain ⟨off, -, rfl⟩ := mem_map.mp mem
    exact ⟨_, rfl, fun with_pin => absurd (by simpa [DeviceClaim.pinned] using with_pin) unpinned⟩

theorem exists_assigned (parsed : parseNet (trimSpace edgeCIDR) = some ipnet)
    (distinct : (claims.map DeviceClaim.key).Nodup)
    (success : allocateDeviceIPs go edgeCIDR claims = .ok out) :
    ∃ assigned : List (DeviceClaim × Str), (assigned.map Prod.fst).Perm claims ∧
      (assigned.map Prod.snd).Nodup ∧
      (∀ entry ∈ assigned,
        entry.2 ∈ entry.1.candidates ipnet (claims.length + maxProbeBudget)) ∧
      (∀ key, key ∈ out ↔ ∃ claim ∈ claims, claim.key = key) ∧
      ∀ claim ∈ claims, ∀ s, out.lookup claim.key = some s ↔ (claim, s) ∈ assigned := by
  obtain ⟨-, placed, placed_eq, rfl⟩ := (allocateDeviceIPs_eq_ok parsed).mp success
  have perm : (placed.map Prod.fst).Perm claims := by
    rw [keys_of_place placed_eq]
    exact (placementOrder_perm _).trans (go.sortSlice_arranges _ lessClaim_orders claims).perm
  have keys_perm : ((entries placed).map Prod.fst).Perm (claims.map DeviceClaim.key) := by
    have keys_eq : (entries placed).map Prod.fst = (placed.map Prod.fst).map DeviceClaim.key := by
      simp [entries]
    rw [keys_eq]
    exact perm.map _
  have nodup : ((entries placed).map Prod.fst).Nodup := keys_perm.nodup_iff.mpr distinct
  refine ⟨placed, perm, nodup_of_place placed_eq, fun entry mem =>
    (mem_of_place placed_eq mem).1, fun key => ?_, fun claim mem s => ?_⟩
  · rw [mem_fill nodup, keys_perm.mem_iff, mem_map]
  · rw [lookup_fill_eq_some nodup, entries, mem_map]
    refine ⟨?_, fun entry_mem => ⟨_, entry_mem, rfl⟩⟩
    rintro ⟨⟨other, _⟩, entry_mem, entry_eq⟩
    obtain ⟨same_key, rfl⟩ := Prod.mk.inj entry_eq
    have other_mem := perm.mem_iff.mp (mem_map_of_mem entry_mem)
    rw [← inj_on_of_nodup_map distinct other_mem mem same_key]
    exact entry_mem

end Success

end DatawerxMesh.Edge
