import DatawerxMesh.Meshfw.Operands

/-!
# Reading a ruleset back

`pkg/meshfw/interpret.go`: a key is read back from the rules as it was collected, unless its
protocol has the text of an option.
-/

namespace DatawerxMesh.Meshfw

open Go Addressing Netfilter Accumulation List

/-- Traffic that a rule accepts. -/
structure Access where
  source : Str
  dest : Str
  protocol : Str
  port : Str
  deriving DecidableEq

/-- What a ruleset accepts and protects. -/
structure Decisions where
  accepts : List Access
  protected_ : List Str
  deriving DecidableEq

/-- The arguments contain a word. -/
def hasArg (args : List Str) (want : Str) : Bool := args.any fun a => a == want

/-- The word behind a flag. -/
def argValue : List Str → Str → Str
  | [], _ | [_], _ => []
  | first :: second :: rest, flag =>
    if first = flag then second else argValue (second :: rest) flag

/-- The `Access` that `Interpret` reads from a rule. -/
def accessOf (args : List Str) : Access where
  source := argValue args (str "-s")
  dest := argValue args (str "-d")
  protocol := argValue args (str "-p")
  port := argValue args (str "--dport")

/-- Add a permitted access unless it is there. -/
def Decisions.permit (d : Decisions) (a : Access) : Decisions :=
  { d with accepts := if a ∈ d.accepts then d.accepts else d.accepts ++ [a] }

/-- Add a protected destination unless it is there. -/
def Decisions.protect (d : Decisions) (dst : Str) : Decisions :=
  { d with protected_ := if dst ∈ d.protected_ then d.protected_ else d.protected_ ++ [dst] }

/-- The body of the loop of `Interpret`.  What has been seen is what has been collected. -/
def interpretRule (d : Decisions) (r : Rule) : Decisions :=
  if r.args = [] ∨ hasArg r.args (str "conntrack") = true then d
  else if r.args.getLast? = some (str "ACCEPT") then d.permit (accessOf r.args)
  else if r.args.getLast? = some (str "DROP") then d.protect (argValue r.args (str "-d"))
  else d

/-- The decisions of a ruleset. -/
def interpret (rs : Ruleset) : Decisions := rs.rules.foldl interpretRule ⟨[], []⟩

/-- The rule is read as an acceptance. -/
def Rule.Accepts (r : Rule) (a : Access) : Prop :=
  hasArg r.args (str "conntrack") = false ∧ r.args.getLast? = some (str "ACCEPT") ∧
    a = accessOf r.args

/-- A rule that drops what is left. -/
def Rule.Protects (r : Rule) (dst : Str) : Prop :=
  hasArg r.args (str "conntrack") = false ∧ r.args.getLast? = some (str "DROP") ∧
    dst = argValue r.args (str "-d")

theorem mem_accepts_permit {d : Decisions} {a other : Access} :
    other ∈ (d.permit a).accepts ↔ other ∈ d.accepts ∨ other = a :=
  mem_add_absent (fun _ => by simp) other

theorem mem_protected_protect {d : Decisions} {dst other : Str} :
    other ∈ (d.protect dst).protected_ ↔ other ∈ d.protected_ ∨ other = dst :=
  mem_add_absent (fun _ => by simp) other

theorem mem_accepts_interpretRule (a : Access) (d : Decisions) (r : Rule) :
    a ∈ (interpretRule d r).accepts ↔ a ∈ d.accepts ∨ r.Accepts a := by
  rw [interpretRule, Rule.Accepts]
  split
  case isTrue skipped =>
    rcases skipped with empty | tracked
    · simp [empty]
    · simp [tracked]
  case isFalse read =>
    have untracked : hasArg r.args (str "conntrack") = false := by simp_all
    split
    case isTrue last => simp [mem_accepts_permit, untracked, last]
    case isFalse other =>
      split <;> simp [Decisions.protect, other]

theorem mem_protected_interpretRule (dst : Str) (d : Decisions) (r : Rule) :
    dst ∈ (interpretRule d r).protected_ ↔ dst ∈ d.protected_ ∨ r.Protects dst := by
  rw [interpretRule, Rule.Protects]
  split
  case isTrue skipped =>
    rcases skipped with empty | tracked
    · simp [empty]
    · simp [tracked]
  case isFalse read =>
    have untracked : hasArg r.args (str "conntrack") = false := by simp_all
    have apart : str "ACCEPT" ≠ str "DROP" := by decide
    split
    case isTrue last => simp [Decisions.permit, last, apart]
    case isFalse other =>
      split
      case isTrue last => simp [mem_protected_protect, untracked, last]
      case isFalse neither => simp [neither]

theorem mem_accepts_interpret {rs : Ruleset} {a : Access} :
    a ∈ (interpret rs).accepts ↔ ∃ r ∈ rs.rules, r.Accepts a :=
  (foldl_iff (fun d : Decisions => a ∈ d.accepts) (mem_accepts_interpretRule a) rs.rules
    ⟨[], []⟩).trans
    (or_iff_right not_mem_nil)

theorem mem_protected_interpret {rs : Ruleset} {dst : Str} :
    dst ∈ (interpret rs).protected_ ↔ ∃ r ∈ rs.rules, r.Protects dst :=
  (foldl_iff (fun d : Decisions => dst ∈ d.protected_) (mem_protected_interpretRule dst) rs.rules
    ⟨[], []⟩).trans (or_iff_right not_mem_nil)

/-- A key as the builder collects it: a usable source, a usable destination or none, and a port
number or none. -/
structure AcceptKey.Formed (key : AcceptKey) : Prop where
  src : FwBuilder.keeps key.src = true
  dst : key.dst = [] ∨ FwBuilder.keeps key.dst = true
  port : key.proto = [] ∧ key.port = [] ∨ key.proto ≠ [] ∧ ∃ number : Int, key.port = itoaInt number

/-- The arguments of the key are read back as the key. -/
def AcceptKey.Legible (key : AcceptKey) : Prop :=
  key.proto ≠ str "conntrack" ∧ (key.dst = [] → key.proto ≠ str "-d")

theorem ne_of_keeps {text word : Str} (kept : FwBuilder.keeps text = true)
    (unkept : FwBuilder.keeps word = false) : text ≠ word := by
  rintro rfl
  rw [unkept] at kept
  cases kept

theorem getLast_acceptArgs (key : AcceptKey) : (acceptArgs key).getLast? = some (str "ACCEPT") := by
  rw [acceptArgs, List.getLast?_append]
  rfl

theorem getLast_dropArgs (dst : Str) : (dropArgs dst).getLast? = some (str "DROP") := by
  rw [dropArgs]
  split <;> rfl

namespace AcceptKey.Formed

variable {key : AcceptKey} (formed : key.Formed)

include formed

theorem port_ne {word : Str} (lettered : ∃ byte ∈ word, isDigit byte = false ∧ byte ≠ 45)
    (some_proto : key.proto ≠ []) : key.port ≠ word := by
  obtain ⟨-, number, port_eq⟩ := formed.port.resolve_left fun any_proto => some_proto any_proto.1
  obtain ⟨byte, mem, not_digit, not_sign⟩ := lettered
  rintro rfl
  rw [port_eq] at mem
  rcases mem_itoaInt mem with digit | sign
  · rw [not_digit] at digit
    cases digit
  · exact not_sign sign

theorem hasArg_conntrack :
    hasArg (acceptArgs key) (str "conntrack") = true ↔ key.proto = str "conntrack" := by
  have words : str "-s" ≠ str "conntrack" ∧ str "-d" ≠ str "conntrack" ∧
      str "-p" ≠ str "conntrack" ∧ str "-m" ≠ str "conntrack" ∧ str "--dport" ≠ str "conntrack" ∧
      str "-j" ≠ str "conntrack" ∧ str "ACCEPT" ≠ str "conntrack" ∧ [] ≠ str "conntrack" := by
    decide
  have src_ne := ne_of_keeps formed.src (by decide : FwBuilder.keeps (str "conntrack") = false)
  have dst_ne : key.dst ≠ [] → key.dst ≠ str "conntrack" := fun some_dst =>
    ne_of_keeps (formed.dst.resolve_left some_dst) (by decide)
  have port_ne : key.proto ≠ [] → key.port ≠ str "conntrack" := formed.port_ne (by decide)
  simp only [hasArg, acceptArgs]
  grind

theorem argValue_source : argValue (acceptArgs key) (str "-s") = key.src := by
  have src_ne := ne_of_keeps formed.src (by decide : FwBuilder.keeps [] = false)
  simp [acceptArgs, src_ne, argValue]

/-- The destination is read back, unless the protocol is the option for one. -/
theorem argValue_destination (legible : key.Legible) :
    argValue (acceptArgs key) (str "-d") = key.dst := by
  have words : str "-s" ≠ str "-d" ∧ str "-p" ≠ str "-d" ∧ str "-m" ≠ str "-d" ∧
      str "--dport" ≠ str "-d" ∧ str "-j" ≠ str "-d" := by decide
  have src_ne := ne_of_keeps formed.src (by decide : FwBuilder.keeps [] = false)
  have src_ne' := ne_of_keeps formed.src (by decide : FwBuilder.keeps (str "-d") = false)
  have port_ne : key.proto ≠ [] → key.port ≠ str "-d" := formed.port_ne (by decide)
  by_cases any_dst : key.dst = []
  · have proto_ne := legible.2 any_dst
    simp only [acceptArgs, any_dst]
    by_cases any_proto : key.proto = []
    · simp [argValue, src_ne, src_ne', any_proto, words]
    · by_cases any_port : key.port = []
      · simp [argValue, src_ne, src_ne', any_proto, any_port, proto_ne, words]
      · simp [argValue, src_ne, src_ne', any_proto, any_port, proto_ne, words, port_ne any_proto]
  · simp [acceptArgs, argValue, src_ne, src_ne', any_dst, words]

/-- Without a destination, such a protocol is read as another option. -/
theorem argValue_destination_illegible (any_dst : key.dst = []) (odd : key.proto = str "-d") :
    argValue (acceptArgs key) (str "-d") = str "-m" := by
  have words : str "-s" ≠ str "-d" ∧ str "-p" ≠ str "-d" := by decide
  have src_ne := ne_of_keeps formed.src (by decide : FwBuilder.keeps [] = false)
  have src_ne' := ne_of_keeps formed.src (by decide : FwBuilder.keeps (str "-d") = false)
  have some_proto : str "-d" ≠ [] := by decide
  obtain ⟨-, number, port_eq⟩ :=
    formed.port.resolve_left fun any_proto => some_proto (odd ▸ any_proto.1)
  simp [acceptArgs, argValue, src_ne, src_ne', any_dst, odd, words, some_proto, port_eq,
    itoaInt_ne_nil]

theorem accessOf_acceptArgs (named : key.proto = [] ∨ key.proto ∈ protocolNames) :
    accessOf (acceptArgs key) = ⟨key.src, key.dst, key.proto, key.port⟩ := by
  have legible : key.Legible := by
    rcases named with any_proto | named
    · rw [AcceptKey.Legible, any_proto]
      exact ⟨by decide, fun _ => by decide⟩
    · exact ⟨fun odd => absurd (odd ▸ named) (by decide),
        fun _ odd => absurd (odd ▸ named) (by decide)⟩
  have src_ne : key.src ≠ [] ∧ key.src ≠ str "-p" ∧ key.src ≠ str "--dport" :=
    ⟨ne_of_keeps formed.src (by decide), ne_of_keeps formed.src (by decide),
      ne_of_keeps formed.src (by decide)⟩
  have dst_ne : key.dst ≠ [] → key.dst ≠ str "-p" ∧ key.dst ≠ str "--dport" := fun some_dst =>
    ⟨ne_of_keeps (formed.dst.resolve_left some_dst) (by decide),
      ne_of_keeps (formed.dst.resolve_left some_dst) (by decide)⟩
  have words : str "-s" ≠ str "-p" ∧ str "-d" ≠ str "-p" ∧ str "-j" ≠ str "-p" ∧
      str "-s" ≠ str "--dport" ∧ str "-d" ≠ str "--dport" ∧ str "-p" ≠ str "--dport" ∧
      str "-m" ≠ str "--dport" ∧ str "-j" ≠ str "--dport" := by decide
  have service : argValue (acceptArgs key) (str "-p") = key.proto ∧
      argValue (acceptArgs key) (str "--dport") = key.port := by
    rcases formed.port with ⟨any_proto, any_port⟩ | ⟨some_proto, number, port_eq⟩
    · by_cases any_dst : key.dst = []
      · simp [acceptArgs, argValue, src_ne, any_dst, any_proto, any_port, words]
      · simp [acceptArgs, argValue, src_ne, any_dst, dst_ne any_dst, any_proto, any_port, words]
    · have some_port : key.port ≠ [] := port_eq ▸ itoaInt_ne_nil number
      have proto_ne : key.proto ≠ str "--dport" := fun odd =>
        absurd (odd ▸ named.resolve_left some_proto) (by decide)
      by_cases any_dst : key.dst = []
      · simp [acceptArgs, argValue, src_ne, any_dst, some_proto, some_port, proto_ne, words]
      · simp [acceptArgs, argValue, src_ne, any_dst, dst_ne any_dst, some_proto, some_port,
          proto_ne, words]
  rw [accessOf, formed.argValue_source, formed.argValue_destination legible, service.1, service.2]

end AcceptKey.Formed

theorem hasArg_dropArgs {dst : Str} (usable : dst = [] ∨ FwBuilder.keeps dst = true) :
    hasArg (dropArgs dst) (str "conntrack") = false := by
  rcases usable with rfl | kept
  · decide
  · have dst_ne := ne_of_keeps kept (by decide : FwBuilder.keeps (str "conntrack") = false)
    have some_dst := ne_of_keeps kept (by decide : FwBuilder.keeps [] = false)
    have words : str "-d" ≠ str "conntrack" ∧ str "-j" ≠ str "conntrack" ∧
        str "DROP" ≠ str "conntrack" := by decide
    simp [hasArg, dropArgs, some_dst, dst_ne, words]

theorem argValue_dropArgs (dst : Str) : argValue (dropArgs dst) (str "-d") = dst := by
  rw [dropArgs]
  split
  case isTrue any_dst =>
    rw [any_dst]
    decide
  case isFalse some_dst => simp [argValue]

section Compiled

variable {policies : List Policy} {clusterCIDRs : Str → List Str}

/-- The policies open this combination. -/
def Compiles (policies : List Policy) (clusterCIDRs : Str → List Str) (key : AcceptKey) : Prop :=
  ∃ p ∈ policies, p.Adds clusterCIDRs (.accept key)

/-- The policies compile to a rule that drops what remains for the destination. -/
def Guards (policies : List Policy) (dest : Str) : Prop := ∃ p ∈ policies, dest ∈ p.dests

theorem Policy.adds_protect_iff (p : Policy) (dest : Str) :
    p.Adds clusterCIDRs (.protect dest) ↔ dest ∈ p.dests := by
  simp [Policy.Adds, Reported, IngressRule.Adds]

theorem Policy.keeps_of_mem_dests {p : Policy} {dest : Str} (mem : dest ∈ p.dests) :
    dest = [] ∨ FwBuilder.keeps dest = true := by
  rw [Policy.dests] at mem
  split at mem
  · exact .inl (mem_singleton.mp mem)
  · exact .inr (mem_filter.mp mem).2

theorem Guards.keeps {dest : Str} (guards : Guards policies dest) :
    dest = [] ∨ FwBuilder.keeps dest = true := by
  obtain ⟨p, -, mem⟩ := guards
  exact p.keeps_of_mem_dests mem

theorem normalizeProto_ne_nil (text : Str) : normalizeProto text ≠ [] := by
  unfold normalizeProto
  dsimp only
  split
  case isTrue => decide
  case isFalse some_text => exact some_text

theorem Compiles.formed {key : AcceptKey} (compiles : Compiles policies clusterCIDRs key) :
    key.Formed := by
  obtain ⟨p, -, added⟩ := compiles
  obtain ⟨ing, -, d, in_dests, s, -, kept, in_keys⟩ := (p.adds_accept_iff key).mp added
  obtain ⟨src_eq, dst_eq⟩ := src_dst_of_mem_acceptKeys in_keys
  refine ⟨src_eq ▸ kept, dst_eq ▸ p.keeps_of_mem_dests in_dests, ?_⟩
  rw [FwBuilder.acceptKeys] at in_keys
  split at in_keys
  · left
    rw [mem_singleton.mp in_keys]
    exact ⟨rfl, rfl⟩
  · right
    obtain ⟨pt, -, rfl⟩ := mem_map.mp in_keys
    exact ⟨normalizeProto_ne_nil pt.protocol, pt.port, rfl⟩

theorem compiles_iff (key : AcceptKey) :
    Compiles policies clusterCIDRs key ↔
      key ∈ (policies.foldl (FwBuilder.addPolicy clusterCIDRs) ⟨[], [], []⟩).accepts :=
  (FwBuilder.has_addPolicies policies (.accept key)).symm

theorem guards_iff (dest : Str) :
    Guards policies dest ↔
      dest ∈ (policies.foldl (FwBuilder.addPolicy clusterCIDRs) ⟨[], [], []⟩).protectedDest := by
  have collected := @FwBuilder.has_addPolicies clusterCIDRs policies (.protect dest)
  simp only [Policy.adds_protect_iff] at collected
  exact collected.symm

theorem permits_buildFirewall_iff {packet : Packet (BitVec 32)}
    (not_established : packet.state ≠ .established) (not_related : packet.state ≠ .related) :
    (buildFirewall policies clusterCIDRs).permits packet = true ↔
      (∃ key, Compiles policies clusterCIDRs key ∧ key.matchesPacket packet = true) ∨
        ¬ ∃ dest, Guards policies dest ∧ matchesAddress dest packet.destination = true := by
  rw [buildFirewall, FwBuilder.permits_iff _ not_established not_related]
  simp only [← compiles_iff, ← guards_iff]

theorem permits_of_tracked {packet : Packet (BitVec 32)}
    (tracked : packet.state = .established ∨ packet.state = .related) :
    (buildFirewall policies clusterCIDRs).permits packet = true := by
  have read : options conntrackArgs = some
      [(.extension, str "conntrack"), (.ctstate, str "RELATED,ESTABLISHED"),
        (.jump, str "ACCEPT")] := rfl
  have listed : packet.state.name ∈ (str "RELATED,ESTABLISHED").splitOn 44 := by
    rcases tracked with state | state
    · rw [state]
      decide
    · rw [state]
      decide
  have first : evalRule filter4 .postrouting noJump packet conntrackArgs =
      some (.accept packet.source) := by
    rw [evalRule, read, Option.bind_eq_bind, Option.bind_some]
    rw [if_pos (by simp [applies, listed])]
    exact targetDecision_accept filter4 .postrouting noJump packet _ rfl
  rw [Ruleset.permits, buildFirewall, FwBuilder.ruleset, map_cons, evalRules,
    List.findSome?_cons, first]
  simp

theorem mem_rules_buildFirewall {r : Rule} :
    r ∈ (buildFirewall policies clusterCIDRs).rules ↔
      r = ⟨fwChain, conntrackArgs⟩ ∨
      (∃ key, Compiles policies clusterCIDRs key ∧ r = ⟨fwChain, acceptArgs key⟩) ∨
      ∃ dest, Guards policies dest ∧ r = ⟨fwChain, dropArgs dest⟩ := by
  have accepts := fun key => @FwBuilder.has_addPolicies clusterCIDRs policies (.accept key)
  have protects := fun dest => @FwBuilder.has_addPolicies clusterCIDRs policies (.protect dest)
  simp only [FwBuilder.Has, Policy.adds_protect_iff] at accepts protects
  simp only [buildFirewall, FwBuilder.ruleset, mem_cons, mem_append, mem_map,
    Sorting.mem_sort, mem_dedup, accepts, protects, Compiles, Guards, eq_comm (a := r)]

theorem hasArg_conntrackArgs : hasArg conntrackArgs (str "conntrack") = true := by decide

theorem mem_accepts_buildFirewall {a : Access} :
    a ∈ (interpret (buildFirewall policies clusterCIDRs)).accepts ↔
      ∃ key, Compiles policies clusterCIDRs key ∧ key.proto ≠ str "conntrack" ∧
        a = accessOf (acceptArgs key) := by
  simp only [mem_accepts_interpret, mem_rules_buildFirewall]
  constructor
  · rintro ⟨r, rfl | ⟨key, compiles, rfl⟩ | ⟨dest, guards, rfl⟩, untracked, last, a_eq⟩
    · cases untracked
    · refine ⟨key, compiles, fun odd => ?_, a_eq⟩
      rw [compiles.formed.hasArg_conntrack.mpr odd] at untracked
      cases untracked
    · rw [getLast_dropArgs] at last
      exact absurd last (by decide)
  · rintro ⟨key, compiles, plain, rfl⟩
    refine ⟨_, .inr (.inl ⟨key, compiles, rfl⟩), ?_, getLast_acceptArgs key, rfl⟩
    rw [← Bool.not_eq_true, compiles.formed.hasArg_conntrack]
    exact plain

theorem mem_protected_buildFirewall {dest : Str} :
    dest ∈ (interpret (buildFirewall policies clusterCIDRs)).protected_ ↔
      Guards policies dest := by
  simp only [mem_protected_interpret, mem_rules_buildFirewall]
  constructor
  · rintro ⟨r, rfl | ⟨key, compiles, rfl⟩ | ⟨guarded, guards, rfl⟩, untracked, last, dest_eq⟩
    · cases untracked
    · rw [getLast_acceptArgs] at last
      exact absurd last (by decide)
    · rw [dest_eq, argValue_dropArgs]
      exact guards
  · intro guards
    exact ⟨_, .inr (.inr ⟨dest, guards, rfl⟩), hasArg_dropArgs guards.keeps, getLast_dropArgs dest,
      (argValue_dropArgs dest).symm⟩

theorem foldl_permit {accesses : List Access} {d : Decisions}
    (distinct : (d.accepts ++ accesses).Nodup) :
    accesses.foldl Decisions.permit d = { d with accepts := d.accepts ++ accesses } := by
  induction accesses generalizing d with
  | nil => simp
  | cons a rest ih =>
    have absent : a ∉ d.accepts := fun present =>
      (nodup_append.mp distinct).2.2 a present a mem_cons_self rfl
    rw [foldl_cons, Decisions.permit, if_neg absent, ih (by simpa using distinct),
      append_assoc, singleton_append]

theorem foldl_protect {dests : List Str} {d : Decisions}
    (distinct : (d.protected_ ++ dests).Nodup) :
    dests.foldl Decisions.protect d = { d with protected_ := d.protected_ ++ dests } := by
  induction dests generalizing d with
  | nil => simp
  | cons dest rest ih =>
    have absent : dest ∉ d.protected_ := fun present =>
      (nodup_append.mp distinct).2.2 dest present dest mem_cons_self rfl
    rw [foldl_cons, Decisions.protect, if_neg absent, ih (by simpa using distinct),
      append_assoc, singleton_append]

/-- The combination as a reader sees it. -/
def AcceptKey.access (key : AcceptKey) : Access := ⟨key.src, key.dst, key.proto, key.port⟩

theorem AcceptKey.access_injective : Function.Injective AcceptKey.access := by
  rintro ⟨⟩ ⟨⟩ same
  simpa [AcceptKey.access] using same

theorem interpretRule_accept {key : AcceptKey} (formed : key.Formed)
    (named : key.proto = [] ∨ key.proto ∈ protocolNames) (d : Decisions) :
    interpretRule d ⟨fwChain, acceptArgs key⟩ = d.permit key.access := by
  have untracked : hasArg (acceptArgs key) (str "conntrack") ≠ true := by
    rw [ne_eq, formed.hasArg_conntrack]
    rintro odd
    rcases named with any_proto | named
    · exact absurd (any_proto.symm.trans odd) (by decide)
    · exact absurd (odd ▸ named) (by decide)
  have last := getLast_acceptArgs key
  have some_args : acceptArgs key ≠ [] := fun empty => by simp [empty] at last
  rw [interpretRule, if_neg (by simp [some_args, untracked]), if_pos last,
    formed.accessOf_acceptArgs named]
  rfl

theorem interpretRule_drop {dest : Str} (usable : dest = [] ∨ FwBuilder.keeps dest = true)
    (d : Decisions) : interpretRule d ⟨fwChain, dropArgs dest⟩ = d.protect dest := by
  have last := getLast_dropArgs dest
  have some_args : dropArgs dest ≠ [] := fun empty => by simp [empty] at last
  rw [interpretRule, if_neg (by simp [some_args, hasArg_dropArgs usable]),
    if_neg (by rw [last]; decide), if_pos last, argValue_dropArgs]

theorem Compiles.named {key : AcceptKey} (compiles : Compiles policies clusterCIDRs key)
    (known : ∀ p ∈ policies, ∀ ing ∈ p.ingress, ∀ pt ∈ ing.ports, KnownProtocol pt.protocol) :
    key.proto = [] ∨ key.proto ∈ protocolNames := by
  obtain ⟨p, mem, added⟩ := compiles
  obtain ⟨ing, in_ingress, d, -, s, -, -, in_keys⟩ := (p.adds_accept_iff key).mp added
  rw [FwBuilder.acceptKeys] at in_keys
  split at in_keys
  · rw [mem_singleton.mp in_keys]
    exact .inl rfl
  · obtain ⟨pt, in_ports, rfl⟩ := mem_map.mp in_keys
    exact .inr (normalizeProto_mem (known p mem ing in_ingress pt in_ports))

end Compiled

theorem nodup_keys (b : FwBuilder) :
    ((Sorting.sort lessAccept b.accepts.dedup).map AcceptKey.access).Nodup :=
  ((Sorting.sort_perm _ _).nodup_iff.mpr (nodup_dedup _)).map AcceptKey.access_injective

theorem nodup_dests (b : FwBuilder) : (Sorting.sort lessDest b.protectedDest.dedup).Nodup :=
  (Sorting.sort_perm _ _).nodup_iff.mpr (nodup_dedup _)

theorem interpret_ruleset (b : FwBuilder)
    (formed : ∀ key ∈ b.accepts, key.Formed ∧ (key.proto = [] ∨ key.proto ∈ protocolNames))
    (usable : ∀ dest ∈ b.protectedDest, dest = [] ∨ FwBuilder.keeps dest = true) :
    interpret b.ruleset = ⟨(Sorting.sort lessAccept b.accepts.dedup).map AcceptKey.access,
      Sorting.sort lessDest b.protectedDest.dedup⟩ := by
  have tracked : ∀ d, interpretRule d ⟨fwChain, conntrackArgs⟩ = d :=
    fun d => if_pos (.inr hasArg_conntrackArgs)
  have accepted := foldl_ext (l := Sorting.sort lessAccept b.accepts.dedup)
    (fun d key => interpretRule d ⟨fwChain, acceptArgs key⟩) (fun d key => d.permit key.access)
    ⟨[], []⟩ fun d key mem => by
      obtain ⟨key_formed, named⟩ := formed key (by simpa using mem)
      exact interpretRule_accept key_formed named d
  have dropped := fun d => foldl_ext (l := Sorting.sort lessDest b.protectedDest.dedup)
    (fun d dest => interpretRule d ⟨fwChain, dropArgs dest⟩) Decisions.protect d
    fun d dest mem => interpretRule_drop (usable dest (by simpa using mem)) d
  rw [interpret, FwBuilder.ruleset, foldl_cons, tracked, foldl_append, foldl_map,
    foldl_map, accepted, dropped, ← foldl_map (g := Decisions.permit),
    foldl_permit (by simpa using nodup_keys b), foldl_protect (by simpa using nodup_dests b)]
  rfl

/-- A compiled ruleset is read back as what was collected: the keys and the destinations, each once
and in the order of the rules. -/
theorem interpret_buildFirewall (policies : List Policy) (clusterCIDRs : Str → List Str)
    (known : ∀ p ∈ policies, ∀ ing ∈ p.ingress, ∀ pt ∈ ing.ports, KnownProtocol pt.protocol) :
    interpret (buildFirewall policies clusterCIDRs) =
        ⟨(Sorting.sort lessAccept (policies.foldl (FwBuilder.addPolicy clusterCIDRs)
            ⟨[], [], []⟩).accepts.dedup).map AcceptKey.access,
          Sorting.sort lessDest (policies.foldl (FwBuilder.addPolicy clusterCIDRs)
            ⟨[], [], []⟩).protectedDest.dedup⟩ ∧
      (interpret (buildFirewall policies clusterCIDRs)).accepts.Nodup ∧
      (interpret (buildFirewall policies clusterCIDRs)).protected_.Nodup := by
  have read := interpret_ruleset (policies.foldl (FwBuilder.addPolicy clusterCIDRs) ⟨[], [], []⟩)
    (fun key collected => ?_) (fun dest collected => ?_)
  · rw [buildFirewall, read]
    exact ⟨rfl, nodup_keys _, nodup_dests _⟩
  · have compiles := (compiles_iff key).mpr collected
    exact ⟨compiles.formed, compiles.named known⟩
  · exact ((guards_iff dest).mpr collected).keeps

/-- The protocol may be in capital letters. -/
theorem interpret_buildFirewall_web : (interpret (buildFirewall
    [⟨[str "10.1.0.0/16"], [⟨[⟨[], [str "10.2.0.0/16"]⟩], [⟨str "TCP", 443⟩]⟩]⟩]
      fun _ => [])).accepts.Nodup := by
  refine (interpret_buildFirewall _ _ ?_).2.1
  simp only [mem_singleton, forall_eq]
  exact .inr (by decide)

end DatawerxMesh.Meshfw
