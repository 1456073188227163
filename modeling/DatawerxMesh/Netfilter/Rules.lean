import DatawerxMesh.Go.NetText

/-!
# Packet filter rules

A rule applies to a packet when all its match options do, and a chain decides a packet by its first
rule that applies.
-/

namespace Netfilter

open Go Addressing Option

/-- The protocol of a packet. -/
inductive Protocol where
  | tcp
  | udp
  | sctp
  | other (number : Nat)
  deriving DecidableEq

/-- The operand of `-p` for a protocol. -/
def Protocol.name : Protocol → Str
  | tcp => "tcp"
  | udp => "udp"
  | sctp => "sctp"
  | other number => itoa number

/-- Connection tracking state of a packet. -/
inductive ConnState where
  | new
  | established
  | related
  | invalid
  | untracked
  deriving DecidableEq

/-- The operand of `--ctstate` for a state. -/
def ConnState.name : ConnState → Str
  | new => "NEW"
  | established => "ESTABLISHED"
  | related => "RELATED"
  | invalid => "INVALID"
  | untracked => "UNTRACKED"

/-- What the rules look at in a packet. -/
structure Packet (α : Type) where
  source : α
  destination : α
  protocol : Protocol
  destinationPort : Nat
  state : ConnState
  deriving DecidableEq

/-- Which address operands a table accepts, membership in a range, and the image of an address in a
range of a one-to-one mapping. -/
structure Family (α : Type) where
  reads : Str → Bool
  member : Str → α → Bool
  netmap : Str → α → α

/-- IPv4 tables read dotted ranges.  That `iptables` reads an operand as `net.ParseCIDR` does is an
assumption; it fails for lengths with a leading zero. -/
def ipv4 : Family (BitVec 32) where
  reads text :=
    match parseNet text with
    | some (.four _) => true
    | _ => false
  member text address :=
    match parseNet text with
    | some (.four block) => block.contains address
    | _ => false
  netmap text address :=
    match parseNet text with
    | some (.four block) => block.renumber address
    | _ => address

/-- IPv6 tables read colon ranges. -/
def ipv6 : Family (BitVec 128) where
  reads text :=
    match parseNet text with
    | some (.sixteen _) => true
    | _ => false
  member text address :=
    match parseNet text with
    | some (.sixteen block) => block.contains address
    | _ => false
  netmap text address :=
    match parseNet text with
    | some (.sixteen block) => block.renumber address
    | _ => address

/-- The options that are read. -/
inductive Flag where
  | source
  | destination
  | protocol
  | extension
  | dport
  | ctstate
  | jump
  | image
  deriving DecidableEq

/-- The option of an argument. -/
def Flag.ofText (text : Str) : Option Flag :=
  if text = "-s" then some source
  else if text = "-d" then some destination
  else if text = "-p" then some protocol
  else if text = "-m" then some extension
  else if text = "--dport" then some dport
  else if text = "--ctstate" then some ctstate
  else if text = "-j" then some jump
  else if text = "--to" then some image
  else none

/-- The options of an argument list with their operands. -/
def options : List Str → Option (List (Flag × Str))
  | [] => some []
  | [_] => none
  | flag :: operand :: rest => do
      let flag ← Flag.ofText flag
      let rest ← options rest
      return (flag, operand) :: rest

/-- First operand given for an option. -/
def operandOf (flag : Flag) (options : List (Flag × Str)) : Option Str :=
  (options.find? fun option => option.1 = flag).map Prod.snd

/-- A chain entered from routing sees the address that it may rewrite. -/
inductive Hook where
  | prerouting
  | postrouting
  deriving DecidableEq

section Evaluation

variable {α : Type}

/-- The address that a hook may rewrite: the destination before routing, the source after it. -/
def Hook.address : Hook → Packet α → α
  | prerouting, packet => packet.destination
  | postrouting, packet => packet.source

/-- An option matches a packet. -/
def applies (family : Family α) (packet : Packet α) : Flag × Str → Bool
  | (.source, operand) => family.member operand packet.source
  | (.destination, operand) => family.member operand packet.destination
  | (.protocol, operand) => operand = packet.protocol.name
  | (.dport, operand) => operand = itoa packet.destinationPort
  | (.ctstate, operand) => (operand.splitOn 44).contains packet.state.name
  | (.extension, _) | (.jump, _) | (.image, _) => true

/-- Final decision on a packet.  An accepted packet leaves with the given address at the hook. -/
inductive Decision (α : Type) where
  | accept (address : α)
  | masquerade
  | drop
  deriving DecidableEq

/-- Decision of the target of a rule; other names are chains to jump to. -/
def targetDecision (family : Family α) (hook : Hook) (jump : Str → Packet α → Option (Decision α))
    (packet : Packet α) (options : List (Flag × Str)) : Option (Decision α) := do
  let name ← operandOf .jump options
  if name = "ACCEPT" then some (.accept (hook.address packet))
  else if name = "DROP" then some .drop
  else if name = "MASQUERADE" then some .masquerade
  else if name = "NETMAP" then
    let range ← operandOf .image options
    some (.accept (family.netmap range (hook.address packet)))
  else jump name packet

/-- Decision of one rule, if it applies. -/
def evalRule (family : Family α) (hook : Hook) (jump : Str → Packet α → Option (Decision α))
    (packet : Packet α) (args : List Str) : Option (Decision α) := do
  let options ← options args
  if options.all (applies family packet) then targetDecision family hook jump packet options
  else none

/-- Decision of the first rule that has one. -/
def evalRules (family : Family α) (hook : Hook) (jump : Str → Packet α → Option (Decision α))
    (rules : List (List Str)) (packet : Packet α) : Option (Decision α) :=
  rules.findSome? (evalRule family hook jump packet)

/-- No chain is entered. -/
def noJump : Str → Packet α → Option (Decision α) := fun _ _ => none

theorem evalRules_append (family : Family α) (hook : Hook)
    (jump : Str → Packet α → Option (Decision α)) (left right : List (List Str))
    (packet : Packet α) :
    evalRules family hook jump (left ++ right) packet =
      (evalRules family hook jump left packet).or (evalRules family hook jump right packet) :=
  List.findSome?_append

variable {jump : Str → Packet α → Option (Decision α)}

theorem evalRules_uniform {family : Family α} {hook : Hook} {rules : List (List Str)}
    {packet : Packet α} {value : Decision α} (uniform : ∀ args ∈ rules, ∀ decision,
      evalRule family hook jump packet args = some decision → decision = value)
    (decision : Decision α) :
    evalRules family hook jump rules packet = some decision ↔
      decision = value ∧ ∃ args ∈ rules, evalRule family hook jump packet args = some value := by
  have decided : ∀ {found}, evalRules family hook jump rules packet = some found →
      found = value ∧ ∃ args ∈ rules, evalRule family hook jump packet args = some value := by
    intro found found_eq
    obtain ⟨args, mem, args_eq⟩ := List.exists_of_findSome?_eq_some found_eq
    obtain rfl := uniform args mem found args_eq
    exact ⟨rfl, args, mem, args_eq⟩
  refine ⟨decided, ?_⟩
  rintro ⟨rfl, args, mem, args_eq⟩
  have some_rule : (evalRules family hook jump rules packet).isSome := by
    rw [evalRules, List.findSome?_isSome_iff]
    exact ⟨args, mem, by rw [args_eq]; rfl⟩
  obtain ⟨found, found_eq⟩ := isSome_iff_exists.mp some_rule
  rw [found_eq, (decided found_eq).1]

theorem evalRules_map {β : Type} {family : Family α} {hook : Hook} {packet : Packet α}
    {args : β → List Str} {test : β → Bool} {value : Decision α} (each : ∀ item,
      evalRule family hook jump packet (args item) = if test item then some value else none)
    (items : List β) (decision : Decision α) :
    evalRules family hook jump (items.map args) packet = some decision ↔
      decision = value ∧ ∃ item ∈ items, test item = true := by
  have uniform : ∀ rule ∈ items.map args, ∀ found,
      evalRule family hook jump packet rule = some found → found = value := by
    intro rule mem found found_eq
    obtain ⟨item, -, rfl⟩ := List.mem_map.mp mem
    rw [each, ite_none_right_eq_some] at found_eq
    exact (Option.some.inj found_eq.2).symm
  rw [evalRules_uniform uniform]
  simp [each]

end Evaluation

theorem options_append {left right : List Str} {first second : List (Flag × Str)}
    (left_eq : options left = some first) (right_eq : options right = some second) :
    options (left ++ right) = some (first ++ second) := by
  fun_induction options left generalizing first with
  | case1 =>
    obtain rfl := Option.some.inj left_eq
    exact right_eq
  | case2 => cases left_eq
  | case3 flag operand rest ih =>
    simp only [bind_eq_bind, bind_eq_some_iff, pure_def, Option.some.injEq] at left_eq
    obtain ⟨read, flag_eq, later, rest_eq, rfl⟩ := left_eq
    simp [options, flag_eq, ih rest_eq]

theorem operandOf_append {flag : Flag} {left right : List (Flag × Str)}
    (absent : ∀ option ∈ left, option.1 ≠ flag) :
    operandOf flag (left ++ right) = operandOf flag right := by
  rw [operandOf, List.find?_append, List.find?_eq_none.mpr fun option mem => by
    simpa using absent option mem]
  rfl

@[simp] theorem ofText_source : Flag.ofText "-s" = some .source := by decide
@[simp] theorem ofText_destination : Flag.ofText "-d" = some .destination := by decide
@[simp] theorem ofText_protocol : Flag.ofText "-p" = some .protocol := by decide
@[simp] theorem ofText_extension : Flag.ofText "-m" = some .extension := by decide
@[simp] theorem ofText_dport : Flag.ofText "--dport" = some .dport := by decide
@[simp] theorem ofText_jump : Flag.ofText "-j" = some .jump := by decide
@[simp] theorem ofText_image : Flag.ofText "--to" = some .image := by decide

section Shapes

variable {α : Type} (family : Family α) (hook : Hook) (jump : Str → Packet α → Option (Decision α))
  (packet : Packet α)

theorem evalRule_netmap_source (range image : Str) :
    evalRule family hook jump packet
        ["-s", range, "-j", "NETMAP", "--to", image] =
      if family.member range packet.source then
        some (.accept (family.netmap image (hook.address packet)))
      else none := by
  have target : targetDecision family hook jump packet
      [(.source, range), (.jump, "NETMAP"), (.image, image)] =
        some (.accept (family.netmap image (hook.address packet))) := rfl
  simp [evalRule, options, applies, target]

theorem evalRule_netmap_destination (range image : Str) :
    evalRule family hook jump packet
        ["-d", range, "-j", "NETMAP", "--to", image] =
      if family.member range packet.destination then
        some (.accept (family.netmap image (hook.address packet)))
      else none := by
  have target : targetDecision family hook jump packet
      [(.destination, range), (.jump, "NETMAP"), (.image, image)] =
        some (.accept (family.netmap image (hook.address packet))) := rfl
  simp [evalRule, options, applies, target]

theorem evalRule_pair (source destination target : Str) :
    evalRule family hook jump packet ["-s", source, "-d", destination, "-j", target] =
      if family.member source packet.source && family.member destination packet.destination then
        targetDecision family hook jump packet
          [(.source, source), (.destination, destination), (.jump, target)]
      else none := by
  simp [evalRule, options, applies]

theorem evalRule_verdict {args : List Str} {found : List (Flag × Str)} {target : Str}
    {verdict : Decision α} (read : options args = some found)
    (no_jump : ∀ option ∈ found, option.1 ≠ .jump)
    (decides : ∀ options, operandOf .jump options = some target →
      targetDecision family hook jump packet options = some verdict) :
    evalRule family hook jump packet (args ++ [str "-j", target]) =
      if found.all (applies family packet) then some verdict else none := by
  have jump_read : options ["-j", target] = some [(.jump, target)] := by simp [options]
  have target_eq := decides (found ++ [(.jump, target)]) (operandOf_append no_jump)
  have all_eq : (found ++ [(Flag.jump, target)]).all (applies family packet) =
      found.all (applies family packet) := by
    simp [applies]
  rw [evalRule, options_append read jump_read, bind_eq_bind, bind_some, all_eq, target_eq]

theorem targetDecision_accept (options : List (Flag × Str))
    (target : operandOf .jump options = some (str "ACCEPT")) :
    targetDecision family hook jump packet options = some (.accept (hook.address packet)) := by
  rw [targetDecision, target]
  rfl

theorem targetDecision_drop (options : List (Flag × Str))
    (target : operandOf .jump options = some (str "DROP")) :
    targetDecision family hook jump packet options = some .drop := by
  rw [targetDecision, target]
  rfl

end Shapes

@[simp] theorem ipv4_member_blockText (block : Block 32) (address : BitVec 32) :
    ipv4.member (blockText block) address = block.contains address := by
  simp [ipv4]

@[simp] theorem ipv4_netmap_blockText (block : Block 32) (address : BitVec 32) :
    ipv4.netmap (blockText block) address = block.renumber address := by
  simp [ipv4]

theorem ipv4_member_iff {text : Str} {address : BitVec 32} :
    ipv4.member text address = true ↔
      ∃ block, parseNet text = some (.four block) ∧ block.contains address = true := by
  simp only [ipv4]
  rcases parseNet text with _ | block | block <;> simp

theorem ipv6_member_iff {text : Str} {address : BitVec 128} :
    ipv6.member text address = true ↔
      ∃ block, parseNet text = some (.sixteen block) ∧ block.contains address = true := by
  simp only [ipv6]
  rcases parseNet text with _ | block | block <;> simp

end Netfilter
