import DatawerxMesh.Library.Lottery
import DatawerxMesh.NatPlane.Operands

/-!
# Traversing the nat chains

What the rules of the planner do to a packet.  A printed probability is a rounded fraction, and is
read as that fraction.
-/

namespace DatawerxMesh.NatPlane

open Go Addressing Netfilter Chance

/-- What the rules of a chain do to a packet; the traversal may run out of jumps. -/
inductive Verdict where
  | passes
  | rewritten (target : Str)
  | exhausted
  deriving DecidableEq

/-- A range matches the addresses of its own family that it contains. -/
def rangeMatches (range : Str) (address : IP) : Bool :=
  match parseNet range, address with
  | some (.four block), .four address => block.contains address
  | some (.sixteen block), .sixteen address => block.contains address
  | _, _ => false

/-- A match of a rule holds for a packet.  What is not a match always does. -/
def optionApplies (packet : Packet IP) (option : Str × Str) : Bool :=
  if option.1 = "-d" then rangeMatches option.2 packet.destination
  else if option.1 = "-p" then option.2 = packet.protocol.name
  else if option.1 = "--dport" then option.2 = itoa packet.destinationPort
  else true

/-- What the target of a rule does. -/
def targetLottery (jump : Str → Lottery Verdict) (options : List (Str × Str)) : Lottery Verdict :=
  match options.lookup (str "-j") with
  | none => .sure .passes
  | some name =>
    if name = "DNAT" then
      match options.lookup (str "--to-destination") with
      | none => .sure .passes
      | some target => .sure (.rewritten target)
    else jump name

/-- What a rule does that is followed by all but one of the given number of rules.  Its printed
probability is read as the fraction that the planner prints there. -/
def ruleLottery (jump : Str → Lottery Verdict) (packet : Packet IP) (left : Nat)
    (args : List Str) : Lottery Verdict :=
  if (optionsOf args).all (optionApplies packet) then
    match (optionsOf args).lookup (str "--probability") with
    | none => targetLottery jump (optionsOf args)
    | some printed =>
      if printed = formatReciprocal left then
        .draw left (targetLottery jump (optionsOf args)) (.sure .passes)
      else .sure .passes
  else .sure .passes

/-- A packet that no rule has rewritten meets the next rules. -/
def Verdict.orElse (next : Lottery Verdict) : Verdict → Lottery Verdict
  | passes => next
  | decided => .sure decided

@[simp] theorem Verdict.orElse_passes (next : Lottery Verdict) : orElse next passes = next := rfl

@[simp] theorem Verdict.orElse_rewritten (next : Lottery Verdict) (target : Str) :
    orElse next (rewritten target) = .sure (rewritten target) :=
  rfl

/-- What the rules of a chain do: the first one that rewrites the packet decides. -/
def rulesLottery (jump : Str → Lottery Verdict) (packet : Packet IP) :
    List (List Str) → Lottery Verdict
  | [] => .sure .passes
  | args :: rest => (ruleLottery jump packet (rest.length + 1) args).bind
      (Verdict.orElse (rulesLottery jump packet rest))

/-- What a chain does when the given number of chains may be entered. -/
def chainLottery (rules : Str → List (List Str)) (packet : Packet IP) :
    Nat → Str → Lottery Verdict
  | 0, _ => .sure .exhausted
  | depth + 1, chain => rulesLottery (chainLottery rules packet depth) packet (rules chain)

/-- The packet is one for a port of a service. -/
def Expansion.Matches (x : Expansion) (packet : Packet IP) : Prop :=
  rangeMatches (hostCIDR x.service.vip) packet.destination = true ∧
    x.proto = packet.protocol.name ∧ x.portStr = itoa packet.destinationPort

instance (x : Expansion) (packet : Packet IP) : Decidable (x.Matches packet) := by
  unfold Expansion.Matches
  infer_instance

section Rules

variable {jump : Str → Lottery Verdict} {packet : Packet IP} {left : Nat}

theorem ruleLottery_rootRule {x : Expansion} (is_chain : x.svcChain ≠ str "DNAT") :
    ruleLottery jump packet left x.rootRule.args =
      if x.Matches packet then jump x.svcChain else .sure .passes := by
  have options_eq : optionsOf x.rootRule.args = [(str "-d", hostCIDR x.service.vip),
      (str "-p", x.proto), (str "-m", x.proto), (str "--dport", x.portStr),
      (str "-j", x.svcChain)] := rfl
  have applies_iff : (optionsOf x.rootRule.args).all (optionApplies packet) = true ↔
      x.Matches packet := by
    simp +decide [options_eq, optionApplies, Expansion.Matches]
  have no_probability : (optionsOf x.rootRule.args).lookup (str "--probability") = none := by
    rfl
  have target : targetLottery jump (optionsOf x.rootRule.args) = jump x.svcChain := by
    have name : (optionsOf x.rootRule.args).lookup (str "-j") = some x.svcChain := by
      rfl
    simp [targetLottery, name, is_chain]
  simp only [ruleLottery, applies_iff, no_probability, target]

theorem ruleLottery_jump {chain : Str} (is_chain : chain ≠ str "DNAT") :
    ruleLottery jump packet left [str "-j", chain] = jump chain := by
  have name : List.lookup (str "-j") [(str "-j", chain)] = some chain := rfl
  have target : targetLottery jump [(str "-j", chain)] = jump chain := by
    simp only [targetLottery, name, is_chain, if_false]
  have options_eq : optionsOf [str "-j", chain] = [(str "-j", chain)] := rfl
  have no_probability : List.lookup (str "--probability") [(str "-j", chain)] = none := rfl
  simp +decide [ruleLottery, options_eq, optionApplies, no_probability, target]

theorem ruleLottery_statistic {chain : Str} (is_chain : chain ≠ str "DNAT") :
    ruleLottery jump packet left [str "-m", str "statistic", str "--mode", str "random",
      str "--probability", formatReciprocal left, str "-j", chain] =
      .draw left (jump chain) (.sure .passes) := by
  let options := [(str "-m", str "statistic"), (str "--mode", str "random"),
    (str "--probability", formatReciprocal left), (str "-j", chain)]
  have options_eq : optionsOf [str "-m", str "statistic", str "--mode", str "random",
      str "--probability", formatReciprocal left, str "-j", chain] = options := rfl
  have name : options.lookup (str "-j") = some chain := rfl
  have printed : options.lookup (str "--probability") = some (formatReciprocal left) := rfl
  have target : targetLottery jump options = jump chain := by
    simp [targetLottery, name, is_chain]
  have all : options.all (optionApplies packet) = true := by
    simp +decide [options, optionApplies]
  simp [ruleLottery, options_eq, all, printed, target]

theorem ruleLottery_dnatRule {x : Expansion} (backend : Str)
    (proto_eq : x.proto = packet.protocol.name) :
    ruleLottery jump packet left (x.dnatRule backend).args =
      .sure (.rewritten (dnatTarget backend x.portStr)) := by
  let options := [(str "-p", x.proto), (str "-j", str "DNAT"),
    (str "--to-destination", dnatTarget backend x.portStr)]
  have options_eq : optionsOf (x.dnatRule backend).args = options := rfl
  have name : options.lookup (str "-j") = some (str "DNAT") := rfl
  have printed : options.lookup (str "--probability") = none := rfl
  have value : options.lookup (str "--to-destination") = some (dnatTarget backend x.portStr) := rfl
  have all : options.all (optionApplies packet) = true := by
    simp +decide [options, optionApplies, proto_eq]
  simp [ruleLottery, options_eq, all, printed, targetLottery, name, value]

end Rules

end DatawerxMesh.NatPlane
