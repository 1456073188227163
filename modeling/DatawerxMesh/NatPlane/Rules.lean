import DatawerxMesh.Netfilter.Rules

/-!
# Rules of the nat planners

`pkg/nat/remap.go`, `nomasq.go` and `gateway.go`: the rules that realize overlap remap entries,
masquerade exemptions and the masquerading of gateway clients.
-/

namespace DatawerxMesh.NatPlane

open Go Addressing Netfilter List

/-- `Rule`: a chain and an argument list. -/
structure Rule where
  chain : Str
  args : List Str
  deriving DecidableEq

/-- `RemapEntry`: a local real range with the virtual range it is presented under. -/
structure RemapEntry where
  real : Str
  virtual : Str
  deriving DecidableEq

/-- Rewrites destinations. -/
def remapPreChain : Str := "DWX-REMAP-PRE"

/-- Rewrites sources. -/
def remapPostChain : Str := "DWX-REMAP-POST"

/-- Exempts mesh traffic. -/
def noMasqChain : Str := "DWX-MESH-NOMASQ"

/-- Masquerades clients. -/
def gatewayMasqChain : Str := "DWX-GW-MASQ"

/-- Texts with a colon. -/
def isIPv6 (text : Str) : Bool := containsByte text 58

/-- The order of remap rules: by virtual text, then by real text. -/
def lessEntry : RemapEntry → RemapEntry → Bool :=
  Sorting.byField RemapEntry.virtual less fun left right => less left.real right.real

variable (entries : List RemapEntry)

/-- The entries that get rules, in rule order. -/
def remapOrder : List RemapEntry :=
  Sorting.sort lessEntry
    (entries.filter fun entry => !(entry.real == [] || entry.virtual == [])).eraseDups

/-- Arguments of an inbound rule. -/
def preArgs (entry : RemapEntry) : List Str :=
  ["-d", entry.virtual, "-j", "NETMAP", "--to", entry.real]

/-- Arguments of an outbound rule. -/
def postArgs (entry : RemapEntry) : List Str :=
  ["-s", entry.real, "-j", "NETMAP", "--to", entry.virtual]

/-- Both directions of the entries. -/
def buildRemapRules : List Rule :=
  (remapOrder entries).map (fun entry => ⟨remapPreChain, preArgs entry⟩) ++
    (remapOrder entries).map (fun entry => ⟨remapPostChain, postArgs entry⟩)

/-- Each text once, sorted. -/
def dedupeSorted (strings : List Str) : List Str :=
  sortStrings (strings.filter fun s => !(s == [])).eraseDups

/-- The rules for all pairs of one family, from sources to destinations with a target. -/
def pairRules (chain : Str) (target : Str) (sources destinations : List Str) : List Rule :=
  (dedupeSorted sources).flatMap fun source =>
    (dedupeSorted destinations).filterMap fun destination =>
      if isIPv6 source != isIPv6 destination then none
      else some ⟨chain, ["-s", source, "-d", destination, "-j", target]⟩

/-- Mesh traffic keeps its source. -/
def buildNoMasqRules (locals remotes : List Str) : List Rule :=
  pairRules noMasqChain "ACCEPT" locals remotes

/-- The order of gateway rules: by source operand, then by destination operand. -/
def lessGatewayRule : Rule → Rule → Bool :=
  Sorting.byField (fun rule => rule.args.getD 1 []) less fun left right =>
    less (left.args.getD 3 []) (right.args.getD 3 [])

/-- Clients are masqueraded. -/
def buildGatewayMasqRules (clientCIDRs destCIDRs : List Str) : List Rule :=
  Sorting.sort lessGatewayRule (pairRules gatewayMasqChain "MASQUERADE" clientCIDRs destCIDRs)

theorem lessEntry_orders : Sorting.Orders lessEntry fun entry => (entry.virtual, entry.real) :=
  less_orders.byField less_orders.onField

variable {entries : List RemapEntry}

theorem mem_remapOrder {entry : RemapEntry} :
    entry ∈ remapOrder entries ↔ entry ∈ entries ∧ entry.real ≠ [] ∧ entry.virtual ≠ [] := by
  simp [remapOrder]

theorem mem_dedupeSorted {strings : List Str} {s : Str} :
    s ∈ dedupeSorted strings ↔ s ∈ strings ∧ s ≠ [] := by
  simp [dedupeSorted, sortStrings]

theorem mem_pairRules {chain target : Str} {sources destinations : List Str} {rule : Rule} :
    rule ∈ pairRules chain target sources destinations ↔
      ∃ source ∈ sources, ∃ destination ∈ destinations, source ≠ [] ∧ destination ≠ [] ∧
        isIPv6 source = isIPv6 destination ∧
        rule = ⟨chain, ["-s", source, "-d", destination, "-j", target]⟩ := by
  simp only [pairRules, mem_flatMap, mem_filterMap, mem_dedupeSorted]
  constructor
  · rintro ⟨source, ⟨in_sources, source_ne⟩, destination, ⟨in_destinations, destination_ne⟩, kept⟩
    split at kept
    · cases kept
    · rename_i same
      exact ⟨source, in_sources, destination, in_destinations, source_ne, destination_ne,
        by simpa using same, (Option.some.inj kept).symm⟩
  · rintro ⟨source, in_sources, destination, in_destinations, source_ne, destination_ne, same, rfl⟩
    exact ⟨source, ⟨in_sources, source_ne⟩, destination, ⟨in_destinations, destination_ne⟩,
      by simp [same]⟩

theorem mem_buildGatewayMasqRules {clientCIDRs destCIDRs : List Str} {rule : Rule} :
    rule ∈ buildGatewayMasqRules clientCIDRs destCIDRs ↔
      rule ∈ pairRules gatewayMasqChain "MASQUERADE" clientCIDRs destCIDRs :=
  Sorting.mem_sort _

/-- The rules of a chain. -/
def chainArgs (chain : Str) (rules : List Rule) : List (List Str) :=
  (rules.filter fun rule => rule.chain = chain).map Rule.args

variable (entries : List RemapEntry)

theorem chainArgs_pre :
    chainArgs remapPreChain (buildRemapRules entries) = (remapOrder entries).map preArgs := by
  have apart : remapPostChain ≠ remapPreChain := by decide
  simp [chainArgs, buildRemapRules, filter_map, Function.comp_def, apart]

theorem chainArgs_post :
    chainArgs remapPostChain (buildRemapRules entries) = (remapOrder entries).map postArgs := by
  have apart : remapPreChain ≠ remapPostChain := by decide
  simp [chainArgs, buildRemapRules, filter_map, Function.comp_def, apart]

/-- Address with which a packet leaves a chain that may rewrite it. -/
def rewritten {α : Type} (before : α) : Option (Decision α) → α
  | some (.accept after) => after
  | _ => before

/-- Source address after the outbound remap chain of a table. -/
def remapPost {α : Type} (family : Family α) (entries : List RemapEntry) (packet : Packet α) : α :=
  rewritten packet.source (evalRules family .postrouting noJump
    (chainArgs remapPostChain (buildRemapRules entries)) packet)

variable (packet : Packet (BitVec 32))

/-- Source address after the outbound remap chain of an IPv4 table. -/
def postSource : BitVec 32 :=
  remapPost ipv4 entries packet

/-- Destination address after the inbound remap chain of an IPv4 table. -/
def preDestination : BitVec 32 :=
  rewritten packet.destination (evalRules ipv4 .prerouting noJump
    (chainArgs remapPreChain (buildRemapRules entries)) packet)

/-- First-match translation by a table of range pairs. -/
def firstMatch (pairs : List (Str × Str)) (address : BitVec 32) : Option (BitVec 32) :=
  (pairs.find? fun pair => ipv4.member pair.1 address).map fun pair => ipv4.netmap pair.2 address

theorem firstMatch_eq {pairs : List (Str × Str)} {address : BitVec 32} (pair : Str × Str)
    (mem : pair ∈ pairs) (matched : ipv4.member pair.1 address = true)
    (alone : ∀ other ∈ pairs, ipv4.member other.1 address = true → other = pair) :
    firstMatch pairs address = some (ipv4.netmap pair.2 address) := by
  rw [firstMatch]
  cases found : pairs.find? fun other => ipv4.member other.1 address with
  | none => exact absurd matched (by simpa using List.find?_eq_none.mp found pair mem)
  | some other =>
    have other_matched := List.find?_some found
    rw [alone other (mem_of_find?_eq_some found) other_matched]
    rfl

theorem firstMatch_eq_none {pairs : List (Str × Str)} {address : BitVec 32}
    (unmatched : ∀ pair ∈ pairs, ipv4.member pair.1 address = false) :
    firstMatch pairs address = none := by
  rw [firstMatch, List.find?_eq_none.mpr fun pair mem => by simp [unmatched pair mem]]
  rfl

/-- Source and image ranges of the outbound rules. -/
def postPairs : List (Str × Str) :=
  (remapOrder entries).map fun entry => (entry.real, entry.virtual)

/-- Source and image ranges of the inbound rules. -/
def prePairs : List (Str × Str) :=
  (remapOrder entries).map fun entry => (entry.virtual, entry.real)

variable {entries : List RemapEntry}

theorem mem_postPairs {pair : Str × Str} :
    pair ∈ postPairs entries ↔ (⟨pair.1, pair.2⟩ : RemapEntry) ∈ entries ∧ pair.1 ≠ [] ∧
      pair.2 ≠ [] := by
  simp only [postPairs, mem_map, mem_remapOrder]
  constructor
  · rintro ⟨entry, shown, rfl⟩
    exact shown
  · exact fun shown => ⟨⟨pair.1, pair.2⟩, shown, rfl⟩

theorem mem_prePairs {pair : Str × Str} :
    pair ∈ prePairs entries ↔ (⟨pair.2, pair.1⟩ : RemapEntry) ∈ entries ∧ pair.2 ≠ [] ∧
      pair.1 ≠ [] := by
  simp only [prePairs, mem_map, mem_remapOrder]
  constructor
  · rintro ⟨entry, shown, rfl⟩
    exact shown
  · exact fun shown => ⟨⟨pair.2, pair.1⟩, shown, rfl⟩

variable (entries : List RemapEntry)
variable (jump : Str → Packet (BitVec 32) → Option (Decision (BitVec 32)))
variable (packet : Packet (BitVec 32))

theorem evalRules_post :
    evalRules ipv4 .postrouting jump (chainArgs remapPostChain (buildRemapRules entries)) packet =
      (firstMatch (postPairs entries) packet.source).map Decision.accept := by
  rw [chainArgs_post, evalRules, firstMatch, postPairs]
  induction remapOrder entries with
  | nil => rfl
  | cons entry rest ih =>
    rw [map_cons, List.findSome?_cons, postArgs, evalRule_netmap_source, map_cons, List.find?_cons]
    cases ipv4.member entry.real packet.source with
    | false => simpa using ih
    | true => rfl

theorem evalRules_pre :
    evalRules ipv4 .prerouting jump (chainArgs remapPreChain (buildRemapRules entries)) packet =
      (firstMatch (prePairs entries) packet.destination).map Decision.accept := by
  rw [chainArgs_pre, evalRules, firstMatch, prePairs]
  induction remapOrder entries with
  | nil => rfl
  | cons entry rest ih =>
    rw [map_cons, List.findSome?_cons, preArgs, evalRule_netmap_destination, map_cons,
      List.find?_cons]
    cases ipv4.member entry.virtual packet.destination with
    | false => simpa using ih
    | true => rfl

theorem rewritten_accept {α : Type} (before : α) (after : Option α) :
    rewritten before (after.map Decision.accept) = after.getD before := by
  cases after <;> rfl

theorem postSource_eq :
    postSource entries packet =
      (firstMatch (postPairs entries) packet.source).getD packet.source := by
  rw [postSource, remapPost, evalRules_post, rewritten_accept]

theorem firstMatch_post_eq_some {entries : List RemapEntry} {address image : BitVec 32} :
    firstMatch (postPairs entries) address = some image ↔
      ∃ entry ∈ remapOrder entries, ipv4.member entry.real address = true ∧
        (∀ other ∈ remapOrder entries, ipv4.member other.real address = true →
          lessEntry other entry = false) ∧ image = ipv4.netmap entry.virtual address := by
  have key_injective : ∀ left right : RemapEntry,
      (left.virtual, left.real) = (right.virtual, right.real) → left = right := by
    rintro ⟨_, _⟩ ⟨_, _⟩ same
    cases same
    rfl
  have least : ∀ entry, (remapOrder entries).find? (fun entry => ipv4.member entry.real address) =
      some entry ↔ entry ∈ remapOrder entries ∧ ipv4.member entry.real address = true ∧
        ∀ other ∈ remapOrder entries, ipv4.member other.real address = true →
          lessEntry other entry = false := by
    intro entry
    simp only [remapOrder, Sorting.mem_sort]
    exact Sorting.find?_sort_eq_some lessEntry_orders key_injective
  rw [firstMatch, postPairs, List.find?_map, Option.map_map, Option.map_eq_some_iff]
  constructor
  · rintro ⟨entry, found, rfl⟩
    obtain ⟨mem, matched, minimal⟩ := (least entry).mp found
    exact ⟨entry, mem, matched, minimal, rfl⟩
  · rintro ⟨entry, mem, matched, minimal, rfl⟩
    exact ⟨entry, (least entry).mpr ⟨mem, matched, minimal⟩, rfl⟩

theorem preDestination_eq :
    preDestination entries packet =
      (firstMatch (prePairs entries) packet.destination).getD packet.destination := by
  rw [preDestination, evalRules_pre, rewritten_accept]

theorem evalRules_pairs {α : Type} {family : Family α} {packet : Packet α}
    {chain target : Str} {sources destinations : List Str} {rules : List Rule} {value : Decision α}
    (same : ∀ rule, rule ∈ rules ↔ rule ∈ pairRules chain target sources destinations)
    (target_eq : ∀ source destination, targetDecision family .postrouting noJump packet
      [(.source, source), (.destination, destination), (.jump, target)] = some value)
    (decision : Decision α) :
    evalRules family .postrouting noJump (chainArgs chain rules) packet = some decision ↔
      decision = value ∧ ∃ source ∈ sources, ∃ destination ∈ destinations,
        source ≠ [] ∧ destination ≠ [] ∧ isIPv6 source = isIPv6 destination ∧
        family.member source packet.source = true ∧
        family.member destination packet.destination = true := by
  have shape : ∀ args ∈ chainArgs chain rules, ∃ source ∈ sources, ∃ destination ∈ destinations,
      source ≠ [] ∧ destination ≠ [] ∧ isIPv6 source = isIPv6 destination ∧
      args = [str "-s", source, str "-d", destination, str "-j", target] := by
    intro args mem
    obtain ⟨rule, rule_mem, rfl⟩ := mem_map.mp mem
    obtain ⟨source, in_sources, destination, in_destinations, source_ne, destination_ne, families,
      rfl⟩ := mem_pairRules.mp ((same rule).mp (mem_filter.mp rule_mem).1)
    exact ⟨source, in_sources, destination, in_destinations, source_ne, destination_ne,
      families, rfl⟩
  rw [evalRules_uniform fun args mem found found_eq => ?_]
  · refine and_congr_right fun _ => ⟨?_, ?_⟩
    · rintro ⟨args, mem, args_eq⟩
      obtain ⟨source, in_sources, destination, in_destinations, source_ne, destination_ne, families,
        rfl⟩ := shape args mem
      rw [evalRule_pair] at args_eq
      split at args_eq
      · rename_i matched
        exact ⟨source, in_sources, destination, in_destinations, source_ne, destination_ne,
          families, Bool.and_eq_true _ _ ▸ matched⟩
      · cases args_eq
    · rintro ⟨source, in_sources, destination, in_destinations, source_ne, destination_ne, families,
        source_matched, destination_matched⟩
      have in_rules := (same _).mpr (mem_pairRules.mpr ⟨source, in_sources, destination,
        in_destinations, source_ne, destination_ne, families, rfl⟩)
      refine ⟨_, mem_map_of_mem (mem_filter.mpr ⟨in_rules, by simp⟩), ?_⟩
      rw [evalRule_pair, source_matched, destination_matched, target_eq]
      rfl
  · obtain ⟨source, -, destination, -, -, -, -, rfl⟩ := shape args mem
    rw [evalRule_pair, target_eq] at found_eq
    split at found_eq
    · exact (Option.some.inj found_eq).symm
    · cases found_eq

end DatawerxMesh.NatPlane
