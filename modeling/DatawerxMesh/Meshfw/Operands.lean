import DatawerxMesh.Meshfw.FailClosed

/-!
# Address operands of the firewall

The compiler looks at the address that a text denotes, and programs the text.  The `iptables`
command reads it in its own way, so a ruleset with the operand `::ffff:10.0.0.0/104` or
`10.0.0.0/08` is never installed.
-/

namespace DatawerxMesh.Meshfw

open Go Addressing Program World Netfilter List Script

/-- The number that digits denote in a base. -/
def number (base : Nat) (digits : Str) : Nat :=
  digits.foldl (fun value byte => value * base + digitValue byte) 0

/-- `strtoul` with base 0 on decimal digits, of which a leading zero announces octal ones. -/
def strtoul : Str → Option Nat
  | 48 :: rest => if rest.any (56 ≤ ·) then none else some (number 8 rest)
  | digits => some (number 10 digits)

/-- What is assumed of the operands that an IPv4 table reads. -/
structure ReadsRanges {α : Type} (family : Family α) : Prop where
  /-- Ranges in colon notation are refused. -/
  colon : ∀ text, 58 ∈ text → family.reads text = false
  /-- The length of a dotted range is read by `strtoul` and is at most 32. -/
  dotted : ∀ (address : BitVec 32) (digits : Str), digits ≠ [] →
    (∀ byte ∈ digits, isDigit byte = true) →
      (family.reads (dotted address ++ 47 :: digits) = true ↔ ∃ len ≤ 32, strtoul digits = some len)

/-- The length has a leading zero and a digit that octal notation lacks. -/
def misread (text : Str) : Bool :=
  match cut 47 text with
  | some (_, 48 :: rest) => rest.any (56 ≤ ·)
  | _ => false

/-- The text is a dotted range of at most 32 bits. -/
def IsDottedRange (text : Str) : Prop :=
  ∃ (address : BitVec 32) (digits : Str), text = dotted address ++ 47 :: digits ∧ digits ≠ [] ∧
    (∀ byte ∈ digits, isDigit byte = true) ∧ number 10 digits ≤ 32

theorem keeps_eq (text : Str) : FwBuilder.keeps text = isIPv4CIDR text := by
  cases text with
  | nil => rfl
  | cons first rest => rfl

theorem number_le_number (digits : Str) : number 8 digits ≤ number 10 digits := by
  have step : ∀ {octal decimal : Nat}, octal ≤ decimal →
      digits.foldl (fun value byte => value * 8 + digitValue byte) octal ≤
        digits.foldl (fun value byte => value * 10 + digitValue byte) decimal := by
    induction digits with
    | nil => exact id
    | cons byte rest ih =>
      intro octal decimal le
      exact ih (Nat.add_le_add_right (Nat.mul_le_mul le (by decide)) _)
  exact step le_rfl

theorem exists_strtoul_iff {address : BitVec 32} {digits : Str} (short : number 10 digits ≤ 32) :
    (∃ len ≤ 32, strtoul digits = some len) ↔ misread (dotted address ++ 47 :: digits) = false := by
  rw [misread, cut_append 47 _ _ (not_mem_dotted address rfl (by decide)), strtoul.eq_def]
  split
  · rename_i rest
    have octal : number 8 rest ≤ 32 := by
      refine (number_le_number rest).trans (le_trans (le_of_eq ?_) short)
      simp [number, digitValue]
    cases any_eq : rest.any (56 ≤ ·) <;> simp_all
  · simp_all

theorem isDottedRange_of_kept {text : Str} (kept : isIPv4CIDR text = true) (plain : 58 ∉ text) :
    IsDottedRange text := by
  rw [isIPv4CIDR] at kept
  split at kept
  case h_2 => cases kept
  case h_1 ip net parsed =>
    have net_eq : parseNet text = some net := by rw [parseNet, parsed]; rfl
    obtain ⟨addrText, maskText, len, rfl, mask_eq, ⟨address, fits, addr_eq, -⟩ |
      ⟨address, -, addr_eq, -⟩⟩ := parts_of_parseNet net_eq
    · refine ⟨address, maskText, by rw [dotted_of_parseAddr addr_eq], ?_, dtoi_bytes mask_eq, ?_⟩
      · rintro rfl
        cases mask_eq
      · cases maskText with
        | nil => cases mask_eq
        | cons byte rest =>
          have is_digit := dtoi_bytes mask_eq byte mem_cons_self
          rw [dtoi, if_pos is_digit] at mask_eq
          rwa [number, ← dtoiLoop_eq mask_eq]
    · exact absurd (mem_append_left _ (parseAddr_v6_colon addr_eq)) plain

theorem isDottedRange_iff {text : Str} (kept : isIPv4CIDR text = true) :
    IsDottedRange text ↔ 58 ∉ text := by
  refine ⟨?_, isDottedRange_of_kept kept⟩
  rintro ⟨address, digits, rfl, -, all, -⟩ colon
  rcases mem_append.mp colon with in_address | in_rest
  · exact not_mem_dotted address rfl (by decide) in_address
  · rcases mem_cons.mp in_rest with slash | in_digits
    · cases slash
    · cases all 58 in_digits

theorem reads_iff {α : Type} {family : Family α} (reader : ReadsRanges family) {text : Str}
    (kept : isIPv4CIDR text = true) :
    family.reads text = true ↔ 58 ∉ text ∧ misread text = false := by
  by_cases colon : 58 ∈ text
  · simp [colon, reader.colon text colon]
  · rw [and_iff_right colon]
    obtain ⟨address, digits, rfl, some_digit, all, short⟩ := isDottedRange_of_kept kept colon
    rw [reader.dotted address digits some_digit all, exists_strtoul_iff short]

/-- All address operands of a rule have the property. -/
def Rule.Operands (good : Str → Prop) (rule : Rule) : Prop :=
  ∃ found, options rule.args = some found ∧ ∀ option ∈ found,
    option.1 = .source ∨ option.1 = .destination → good option.2

variable {good : Str → Prop}

theorem operands_addressOption {flag : Flag} (is_address : flag = .source ∨ flag = .destination)
    (text : Str) :
    (∀ option ∈ addressOption flag text,
      option.1 = .source ∨ option.1 = .destination → good option.2) ↔ (text ≠ [] → good text) := by
  by_cases empty : text = []
  · simp [addressOption, empty]
  · simp [addressOption, empty, is_address]

theorem flags_serviceOptions (proto port : Str) : ∀ option ∈ serviceOptions proto port,
    option.1 ∈ [Flag.protocol, .extension, .dport] := by
  simp only [serviceOptions]
  grind

theorem options_acceptArgs (key : AcceptKey) :
    options (acceptArgs key) = some (addressOption .source key.src ++
      addressOption .destination key.dst ++ serviceOptions key.proto key.port ++
        [(.jump, str "ACCEPT")]) := by
  have jump : options [str "-j", str "ACCEPT"] = some [(.jump, str "ACCEPT")] := rfl
  exact options_append (options_append (options_append (options_address ofText_source key.src)
    (options_address ofText_destination key.dst)) (options_service key.proto key.port)) jump

theorem options_dropArgs (dst : Str) :
    options (dropArgs dst) = some (addressOption .destination dst ++ [(.jump, str "DROP")]) := by
  have jump : options [str "-j", str "DROP"] = some [(.jump, str "DROP")] := rfl
  rw [dropArgs_eq]
  exact options_append (options_address ofText_destination dst) jump

theorem operands_acceptArgs (chain : Str) (key : AcceptKey) :
    (Rule.mk chain (acceptArgs key)).Operands good ↔
      (key.src ≠ [] → good key.src) ∧ (key.dst ≠ [] → good key.dst) := by
  have service : ∀ option ∈ serviceOptions key.proto key.port,
      option.1 = .source ∨ option.1 = .destination → good option.2 := by
    intro option mem is_address
    have flag := flags_serviceOptions key.proto key.port option mem
    rcases is_address with eq | eq <;> simp [eq] at flag
  simp only [Rule.Operands, options_acceptArgs, Option.some.injEq, exists_eq_left',
    forall_mem_append, operands_addressOption (.inl rfl) key.src,
    operands_addressOption (.inr rfl) key.dst, and_iff_left service]
  simp

theorem operands_dropArgs (chain dst : Str) :
    (Rule.mk chain (dropArgs dst)).Operands good ↔ (dst ≠ [] → good dst) := by
  simp only [Rule.Operands, options_dropArgs, Option.some.injEq, exists_eq_left',
    forall_mem_append, operands_addressOption (.inr rfl) dst]
  simp

theorem operands_conntrackArgs (chain : Str) : (Rule.mk chain conntrackArgs).Operands good :=
  ⟨[(.extension, "conntrack"), (.ctstate, "RELATED,ESTABLISHED"), (.jump, "ACCEPT")],
    rfl, by simp⟩

/-- The rule of a collected item has only good address operands. -/
def Item.Operands (good : Str → Prop) : Item → Prop
  | .accept key => (key.src ≠ [] → good key.src) ∧ (key.dst ≠ [] → good key.dst)
  | .protect dest => dest ≠ [] → good dest
  | .skip _ => True

theorem FwBuilder.operands_ruleset (b : FwBuilder) :
    (∀ rule ∈ b.ruleset.rules, rule.Operands good) ↔ ∀ item, b.Has item → item.Operands good := by
  simp only [FwBuilder.ruleset, forall_mem_cons, forall_mem_append, forall_mem_map,
    Sorting.mem_sort, mem_dedup, operands_conntrackArgs, operands_acceptArgs,
    operands_dropArgs, true_and]
  constructor
  · rintro ⟨accepts, drops⟩ (key | dest | text) has
    · exact accepts key has
    · exact drops dest has
    · trivial
  · intro all
    exact ⟨fun key has => all (.accept key) has, fun dest has => all (.protect dest) has⟩

/-- The policy protects everything, or some usable range. -/
def Policy.Protects (p : Policy) : Prop :=
  p.destinations = [] ∨ ∃ d ∈ p.destinations, isIPv4CIDR d = true

theorem Policy.protects_iff (p : Policy) : p.Protects ↔ ∃ d, d ∈ p.dests := by
  rw [Policy.Protects, Policy.dests]
  split
  case isTrue everything => simp [everything]
  case isFalse some_listed => simp [some_listed, keeps_eq]

/-- Every text of the policies in force that the compiler keeps has the property. -/
def EveryKept (policies : List Policy) (clusterCIDRs : Str → List Str) (good : Str → Prop) : Prop :=
  ∀ p ∈ policies, (∀ d ∈ p.destinations, isIPv4CIDR d = true → good d) ∧
    (p.Protects → ∀ ing ∈ p.ingress, ∀ s ∈ resolveSources ing.from_ clusterCIDRs,
      isIPv4CIDR s = true → good s)

theorem EveryKept.congr {policies : List Policy} {clusterCIDRs : Str → List Str}
    {other : Str → Prop} (same : ∀ text, isIPv4CIDR text = true → (good text ↔ other text)) :
    EveryKept policies clusterCIDRs good ↔ EveryKept policies clusterCIDRs other := by
  simp +contextual only [EveryKept, same]

theorem ne_nil_of_kept {text : Str} (kept : isIPv4CIDR text = true) : text ≠ [] := by
  rintro rfl
  cases kept

theorem Policy.good_dests (p : Policy) : (∀ d ∈ p.dests, d ≠ [] → good d) ↔
    ∀ d ∈ p.destinations, isIPv4CIDR d = true → good d := by
  rw [Policy.dests]
  split
  case isTrue everything => simp [everything]
  case isFalse some_listed =>
    simp only [mem_filter, keeps_eq, and_imp]
    refine forall₂_congr fun d _ => forall_congr' fun kept => ?_
    simp [ne_nil_of_kept kept]

theorem src_dst_of_mem_acceptKeys {src dst : Str} {ports : List Port} {key : AcceptKey}
    (mem : key ∈ FwBuilder.acceptKeys src dst ports) : key.src = src ∧ key.dst = dst := by
  rw [FwBuilder.acceptKeys] at mem
  split at mem
  · obtain rfl := mem_singleton.mp mem
    exact ⟨rfl, rfl⟩
  · obtain ⟨pt, -, rfl⟩ := mem_map.mp mem
    exact ⟨rfl, rfl⟩

theorem exists_mem_acceptKeys (src dst : Str) (ports : List Port) :
    ∃ key, key ∈ FwBuilder.acceptKeys src dst ports := by
  rw [FwBuilder.acceptKeys]
  split
  · exact ⟨_, mem_singleton_self _⟩
  case isFalse some_port =>
    obtain ⟨pt, mem⟩ := exists_mem_of_ne_nil ports some_port
    exact ⟨_, mem_map_of_mem mem⟩

theorem Policy.operands_adds (p : Policy) (clusterCIDRs : Str → List Str) :
    (∀ item, p.Adds clusterCIDRs item → item.Operands good) ↔
      (∀ d ∈ p.destinations, isIPv4CIDR d = true → good d) ∧
        (p.Protects → ∀ ing ∈ p.ingress, ∀ s ∈ resolveSources ing.from_ clusterCIDRs,
          isIPv4CIDR s = true → good s) := by
  rw [← p.good_dests]
  constructor
  · intro all
    refine ⟨fun d mem => all (.protect d) (.inr (.inl ⟨d, mem, rfl⟩)),
      fun protects ing in_ingress s in_sources kept => ?_⟩
    obtain ⟨d, in_dests⟩ := p.protects_iff.mp protects
    obtain ⟨key, in_keys⟩ := exists_mem_acceptKeys s d ing.ports
    have added := (p.adds_accept_iff key).mpr
      ⟨ing, in_ingress, d, in_dests, s, in_sources, (keeps_eq s).trans kept, in_keys⟩
    have source := (all (.accept key) added).1
    rw [(src_dst_of_mem_acceptKeys in_keys).1] at source
    exact source (ne_nil_of_kept kept)
  · rintro ⟨dests, sources⟩ (key | dest | text) added
    · obtain ⟨ing, in_ingress, d, in_dests, s, in_sources, kept, in_keys⟩ :=
        (p.adds_accept_iff key).mp added
      obtain ⟨src_eq, dst_eq⟩ := src_dst_of_mem_acceptKeys in_keys
      have protects := p.protects_iff.mpr ⟨d, in_dests⟩
      exact ⟨fun _ => src_eq ▸ sources protects ing in_ingress s in_sources
        ((keeps_eq s).symm.trans kept), dst_eq ▸ dests d in_dests⟩
    · have mem : dest ∈ p.dests := by
        simpa [Policy.Adds, Reported, IngressRule.Adds] using added
      exact dests dest mem
    · trivial

theorem operands_buildFirewall (policies : List Policy) (clusterCIDRs : Str → List Str) :
    (∀ rule ∈ (buildFirewall policies clusterCIDRs).rules, rule.Operands good) ↔
      EveryKept policies clusterCIDRs good := by
  rw [buildFirewall, FwBuilder.operands_ruleset]
  simp only [FwBuilder.has_addPolicies, EveryKept, ← Policy.operands_adds]
  constructor
  · intro all p mem item added
    exact all item ⟨p, mem, added⟩
  · rintro all item ⟨p, mem, added⟩
    exact all p mem item added

/-- Compiled rules have no other operands that a table may refuse. -/
theorem accepts_iff_operands {α : Type} {family : Family α} {policies : List Policy}
    {clusterCIDRs : Str → List Str} {rule : Rule}
    (mem : rule ∈ (buildFirewall policies clusterCIDRs).rules) :
    accepts family rule.args = true ↔ rule.Operands fun text => family.reads text = true := by
  obtain ⟨found, read, plain⟩ : ∃ found, options rule.args = some found ∧
      ∀ option ∈ found, option.1 ≠ .image := by
    simp only [buildFirewall, FwBuilder.ruleset, mem_cons, mem_append, mem_map] at mem
    obtain rfl | ⟨key, -, rfl⟩ | ⟨dst, -, rfl⟩ := mem
    · exact ⟨_, rfl, by decide⟩
    · refine ⟨_, options_acceptArgs key, fun option mem => ?_⟩
      have service := flags_serviceOptions key.proto key.port option
      simp only [addressOption, mem_append] at mem
      grind
    · refine ⟨_, options_dropArgs dst, fun option mem => ?_⟩
      simp only [addressOption, mem_append] at mem
      grind
  rw [accepts, read]
  simp only [Rule.Operands, read, Option.some.injEq, exists_eq_left', all_eq_true]
  refine forall₂_congr fun option in_found => ?_
  obtain ⟨flag, operand⟩ := option
  have not_image := plain _ in_found
  cases flag <;> simp_all [readable]

/-- A sync with a rule that the table refuses does not succeed, from whatever state. -/
theorem ensures_syncFirewall_fails {α ρ : Type} {family : Family α} {rs : Ruleset} {rule : Rule}
    (mem : rule ∈ rs.rules) (refused : accepts family rule.args = false) (wgIface : Str)
    (state : Table × ρ) :
    (kernel family ρ).Ensures (fun _ => True) (byResult (fun _ _ => False) fun _ _ => True)
      (syncFirewall wgIface rs).run state := by
  -- The loop reaches the rule, unless it has failed before.
  have appending : ∀ seen, (kernel family ρ).Ensures (fun _ => True)
      (byResult (fun _ _ => False) fun _ _ => True) (rs.rules.forM appendRule).run seen := by
    intro seen
    have step : ∀ item left (seen : Table × ρ), rule ∈ item :: left →
        (kernel family ρ).Ensures (fun _ => True)
          (byResult (fun _ _ => rule ∈ left) fun _ _ => True) (appendRule item).run seen := by
      intro item left seen in_left
      refine ensures_attempt trivial (fun error => trivial) fun value after effect_eq => ?_
      refine ⟨trivial, (mem_cons.mp in_left).resolve_left ?_⟩
      rintro rfl
      simp [Command.effect, Table.append, refused] at effect_eq
    refine (Ensures.forM (fun left _ => rule ∈ left) (fun _ _ _ => trivial) step mem).mono
      ?_
    rintro (error | _) seen holds
    · trivial
    · exact not_mem_nil holds
  iterate 3
    refine Ensures.attempt ((Ensures.trivial _ _).mono ?_)
    rintro (error | _) seen -
    · trivial
  refine Ensures.attempt ((appending seen).mono ?_)
  rintro (error | _) seen failed
  · trivial
  · exact failed.elim

section Accepted

variable {α : Type} {family : Family α} {state : Table × Unit} {wgIface : Str}

theorem achieves_attempt (context : Str) (command : Command)
    {returned : command.Value → Table × Unit → Prop}
    (accepted : (command.effect family state.1).isSome = true)
    (holds : ∀ value table, command.effect family state.1 = some (value, table) →
      returned value (table, state.2)) :
    Achieves (obey family) returned (attempt context command) state := by
  obtain ⟨⟨value, table⟩, effective⟩ := Option.isSome_iff_exists.mp accepted
  refine ⟨value, (table, state.2), ?_, holds value table effective⟩
  simp only [attempt, ExceptT.run, ExceptT.mk, Script.exec, obey, effective]
  rfl

theorem mem_chains_effect {command : Command} {value : command.Value} {table after : Table}
    (effective : command.effect family table = some (value, after)) {chain : Str}
    (mem : chain ∈ table.chains) : chain ∈ after.chains := by
  cases command with
  | clearChain other =>
    obtain ⟨-, rfl⟩ := Prod.mk.inj (Option.some.inj effective)
    simp only [Table.clearChain]
    split <;> simp [mem]
  | _ =>
    simp only [Command.effect, Table.newChain, Table.insertFirst, Table.append, Table.deleteRule,
      Option.some.injEq, Option.map_eq_some_iff, Option.ite_none_left_eq_some,
      Option.ite_none_right_eq_some, Prod.mk.injEq] at effective
    grind

/-- The given chains are in the table. -/
abbrev Present (chains : List Str) (state : Table × Unit) : Prop :=
  ∀ chain ∈ chains, chain ∈ state.1.chains

variable {chains : List Str}

theorem achieves_keeping (context : Str) (command : Command) (present : Present chains state)
    (accepted : (command.effect family state.1).isSome = true) :
    Achieves (obey family) (fun _ => Present chains) (attempt context command) state :=
  achieves_attempt context command accepted fun _ _ effective chain mem =>
    mem_chains_effect effective (present chain mem)

theorem achieves_ensureChain (present : Present chains state) (chain : Str) :
    Achieves (obey family) (fun _ => Present (chain :: chains)) (ensureChain chain)
      state := by
  refine .attempt (achieves_attempt _ _ rfl ?_)
  rintro _ _ ⟨⟩
  by_cases listed : chain ∈ state.1.chains
  · rw [decide_eq_true listed]
    exact ⟨(), state, rfl, forall_mem_cons.mpr ⟨listed, present⟩⟩
  · rw [decide_eq_false listed, Bool.not_false, if_pos rfl]
    refine achieves_attempt _ (.newChain chain)
      (by simp [Command.effect, Table.newChain, listed]) fun _ _ effective => ?_
    refine forall_mem_cons.mpr ⟨?_, fun other mem =>
      mem_chains_effect effective (present other mem)⟩
    simp only [Command.effect, Table.newChain, if_neg listed, Option.map_some,
      Option.some.injEq, Prod.mk.injEq, true_and] at effective
    simp [← effective]

theorem achieves_check {chain checking : Str} {args : List Str} {next : Bool → Procedure}
    {returned : Unit → Table × Unit → Prop}
    (later : Achieves (obey family) returned (next (state.1.hasRule chain args)) state) :
    Achieves (obey family) returned (attempt checking (.ruleExists chain args) >>= next)
      state := by
  refine .attempt (achieves_attempt _ _ rfl ?_)
  rintro _ _ ⟨⟩
  exact later

theorem achieves_insertOnce {hook checking inserting : Str} {spec : List Str}
    (mem : hook ∈ chains) (present : Present chains state) :
    Achieves (obey family) (fun _ => Present chains)
      (do let found ← attempt checking (.ruleExists hook spec)
          if !found then attempt inserting (.insert hook spec)) state := by
  refine achieves_check ?_
  cases state.1.hasRule hook spec with
  | true => exact ⟨(), state, rfl, present⟩
  | false =>
    rw [Bool.not_false, if_pos rfl]
    refine achieves_keeping _ (.insert hook spec) present ?_
    simp [Command.effect, Table.insertFirst, present _ mem]

theorem achieves_disengageHook (present : Present chains state) (hook : Str) :
    Achieves (obey family) (fun _ => Present chains) (disengageHook wgIface hook) state := by
  refine achieves_check ?_
  cases found : state.1.hasRule hook (hookSpec wgIface fwChainGuard) with
  | false => exact ⟨(), state, rfl, present⟩
  | true =>
    rw [if_pos rfl]
    refine achieves_keeping _ (.delete hook _) present ?_
    simp [Command.effect, Table.deleteRule, found]

theorem achieves_ensureGuardChain (present : Present chains state) :
    Achieves (obey family) (fun _ => Present (fwChainGuard :: chains)) ensureGuardChain
      state := by
  refine .attempt ((achieves_ensureChain present fwChainGuard).mono fun _ seen present => ?_)
  refine achieves_check ?_
  cases seen.1.hasRule fwChainGuard guardDrop with
  | true => exact ⟨(), seen, rfl, present⟩
  | false =>
    rw [Bool.not_false, if_pos rfl]
    have guard : fwChainGuard ∈ seen.1.chains := present _ mem_cons_self
    have readable_drop : accepts family guardDrop = true := rfl
    refine achieves_keeping _ (.append fwChainGuard guardDrop) present ?_
    simp [Command.effect, Table.append, guard, readable_drop]

theorem achieves_hooks {body : Str → Procedure} (hooks : hookChains ⊆ chains)
    (step : ∀ hook ∈ chains, ∀ seen, Present chains seen →
      Achieves (obey family) (fun _ => Present chains) (body hook) seen)
    (present : Present chains state) :
    Achieves (obey family) (fun _ => Present chains) (hookChains.forM body) state := by
  refine Achieves.mono (Achieves.forM (fun left seen => left ⊆ chains ∧
    Present chains seen) ?_ ⟨hooks, present⟩) fun _ _ => And.right
  intro hook left seen holds
  obtain ⟨listed, rest⟩ := cons_subset.mp holds.1
  exact (step hook listed seen holds.2).mono fun _ _ after => ⟨rest, after⟩

/-- The chains that a sync needs. -/
abbrev ownChains : List Str := fwChainGuard :: fwChain :: hookChains

theorem achieves_ensureInfra (present : Present hookChains state) :
    Achieves (obey family) (fun _ => Present ownChains) (ensureInfra wgIface) state := by
  refine .attempt ((achieves_ensureChain present fwChain).mono fun _ seen present => ?_)
  refine .attempt ((achieves_ensureGuardChain present).mono fun _ seen present => ?_)
  exact achieves_hooks (by simp) (fun hook mem _ => achieves_insertOnce mem) present

variable {rs : Ruleset} (own : ∀ rule ∈ rs.rules, rule.chain = fwChain)
  (accepted : ∀ rule ∈ rs.rules, accepts family rule.args = true)

include own accepted

theorem achieves_appendRules (present : Present ownChains state) :
    Achieves (obey family) (fun _ => Present ownChains) (rs.rules.forM appendRule)
      state := by
  refine Achieves.mono (Achieves.forM (fun left seen => left ⊆ rs.rules ∧
    Present ownChains seen) ?_ ⟨Subset.refl _, present⟩) fun _ _ => And.right
  intro rule left seen holds
  obtain ⟨listed, rest⟩ := cons_subset.mp holds.1
  have chain : rule.chain ∈ seen.1.chains := own rule listed ▸ holds.2 _ (by simp)
  have effective : ((Command.append rule.chain rule.args).effect family seen.1).isSome = true := by
    simp [Command.effect, Table.append, chain, accepted rule listed]
  exact (achieves_keeping _ _ holds.2 effective).mono fun _ _ kept => ⟨rest, kept⟩

/-- A sync whose rules the table accepts succeeds on every table with the built-in chains, unless a
command fails that the table does not refuse. -/
theorem achieves_syncFirewall (present : Present hookChains state) :
    Achieves (obey family) (fun _ _ => True) (syncFirewall wgIface rs) state := by
  refine .attempt ((achieves_ensureInfra present).mono fun _ _ present => ?_)
  refine .attempt ((achieves_hooks (by simp) (fun hook mem _ => achieves_insertOnce mem)
    present).mono fun _ _ present => ?_)
  refine .attempt ((achieves_keeping _ (.clearChain fwChain) present rfl).mono
    fun _ _ present => ?_)
  refine .attempt ((achieves_appendRules own accepted present).mono fun _ _ present => ?_)
  exact (Achieves.adapt (achieves_hooks (by simp) (fun hook _ _ present =>
    achieves_disengageHook present hook) present)).mono fun _ _ _ => trivial

end Accepted

/-- The operands that the `iptables` command reads: dotted addresses, with a length or without. -/
def iptables : Family (BitVec 32) :=
  { ipv4 with
    reads := fun text =>
      match cut 47 text with
      | some (front, digits) => (parseIPv4 front).isSome && digits.all isDigit &&
          (strtoul digits).any (· ≤ 32)
      | none => (parseIPv4 text).isSome }

theorem readsRanges_iptables : ReadsRanges iptables where
  colon text colon := by
    have refused : ∀ front : Str, 58 ∈ front → parseIPv4 front = none := by
      intro front mem
      rw [parseIPv4, Option.map_eq_none_iff, Option.eq_none_iff_forall_ne_some]
      intro fields parsed
      rw [dotted_of_parseIPv4Fields parsed] at mem
      exact not_mem_dotted _ rfl (by decide) mem
    simp only [iptables]
    split
    · rename_i front digits split
      rw [eq_of_cut split, mem_append, mem_cons] at colon
      rcases colon with in_front | slash | in_digits
      · simp [refused front in_front]
      · cases slash
      · have no_digit : digits.all isDigit = false :=
          all_eq_false.mpr ⟨58, in_digits, by decide⟩
        simp [no_digit]
    · simp [refused text colon]
  dotted address digits _ all := by
    simp only [iptables, cut_append 47 _ _ (not_mem_dotted address rfl (by decide)),
      parseIPv4_dotted, all_eq_true.mpr all, Option.any_eq_true, Option.isSome_some,
      Bool.and_true, Bool.true_and, decide_eq_true_eq]
    exact exists_congr fun _ => and_comm

/-- A cluster that advertises one range in the given spelling. -/
def clusterRange (text id : Str) : List Str := if id = "cluster-b" then [text] else []

/-- The range is programmed without a report.  No sync succeeds, and one that starts from a prepared
table leaves both hook chains guarded. -/
def Wedges (text : Str) : Prop :=
  let rs := buildFirewall [databasePolicy] (clusterRange text)
  ⟨fwChain, ["-s", text, "-d", "10.96.5.0/24", "-p", "tcp", "-m", "tcp", "--dport", "5432", "-j",
    "ACCEPT"]⟩ ∈ rs.rules ∧
  iptables.reads text = false ∧ rs.skipped = ["dest:fd00::/64"] ∧
  (∀ wgIface before after, ¬ (kernel iptables Unit).Returns (syncFirewall wgIface rs).run before
    (.ok ()) after) ∧
  ∀ hook ∈ hookChains, ((syncFirewall "dwx-mesh0" rs).run.exec (obey iptables)
      (preparedTable, ())).2.1.rules hook =
    [hookSpec "dwx-mesh0" fwChainGuard, hookSpec "dwx-mesh0" fwChain]

end DatawerxMesh.Meshfw
