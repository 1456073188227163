import DatawerxMesh.Netfilter.Rules
import DatawerxMesh.Library.Script

/-!
# Commands on a table of chains

The operations of the `iptables` command that programs call through its library, with the cases in
which they fail.  Every command may also fail because another program holds the lock, and then it
changes nothing.  A chain can be deleted only when it is empty and no rule jumps to it, and a rule
can be added only when its target is there.
-/

namespace Netfilter

open Go Program

/-- A table: the names of its chains, and their rules. -/
@[ext]
structure Table where
  chains : List Str
  rules : Str → List (List Str)

section Operands

variable {α : Type}

/-- A table accepts an option when it can read its operand. -/
def readable (family : Family α) : Flag × Str → Bool
  | (.source, operand) | (.destination, operand) | (.image, operand) => family.reads operand
  | _ => true

/-- A table accepts an argument list when it can read all of it. -/
def accepts (family : Family α) (args : List Str) : Bool :=
  match options args with
  | some options => options.all (readable family)
  | none => false

end Operands

namespace Table

variable (table : Table) (chain : Str)

/-- `iptables -N`. -/
def newChain : Option Table :=
  if chain ∈ table.chains then none
  else some ⟨table.chains ++ [chain], Function.update table.rules chain []⟩

/-- `iptables -C`. -/
def hasRule (args : List Str) : Bool :=
  chain ∈ table.chains && args ∈ table.rules chain

/-- `iptables -I` at the first position. -/
def insertFirst (args : List Str) : Option Table :=
  if chain ∈ table.chains then
    some { table with rules := Function.update table.rules chain (args :: table.rules chain) }
  else none

/-- `iptables -A`. -/
def append {α : Type} (family : Family α) (table : Table) (chain : Str) (args : List Str) :
    Option Table :=
  if chain ∈ table.chains ∧ accepts family args = true then
    some { table with rules := Function.update table.rules chain (table.rules chain ++ [args]) }
  else none

/-- `iptables -D`: remove the first equal rule. -/
def deleteRule (args : List Str) : Option Table :=
  if table.hasRule chain args then
    some { table with rules := Function.update table.rules chain ((table.rules chain).erase args) }
  else none

/-- `ClearChain`: create the chain or flush it. -/
def clearChain : Table where
  chains := if chain ∈ table.chains then table.chains else table.chains ++ [chain]
  rules := Function.update table.rules chain []

/-- Arguments of an unconditional jump. -/
def jumpTo : List Str := ["-j", chain]

/-- Jumps to the given chains are followed; `foreign` decides all other rules. -/
def traverse {α : Type} (family : Family α) (hook : Hook) (own : List Str)
    (foreign : List Str → Packet α → Option (Decision α)) (table : Table) (builtin : Str)
    (packet : Packet α) : Option (Decision α) :=
  (table.rules builtin).findSome? fun args =>
    match own.find? fun chain => jumpTo chain = args with
    | some chain => evalRules family hook noJump (table.rules chain) packet
    | none => foreign args packet

theorem jumpTo_injective {left right : Str} (same : jumpTo left = jumpTo right) : left = right := by
  simpa [jumpTo] using same

end Table

/-- Commands of the library on one table; `insert` is at the first position. -/
inductive Command where
  | chainExists (chain : Str)
  | newChain (chain : Str)
  | ruleExists (chain : Str) (args : List Str)
  | insert (chain : Str) (args : List Str)
  | append (chain : Str) (args : List Str)
  | delete (chain : Str) (args : List Str)
  | clearChain (chain : Str)

/-- What a command returns. -/
abbrev Command.Value : Command → Type
  | chainExists _ | ruleExists _ _ => Bool
  | newChain _ | insert _ _ | append _ _ | delete _ _ | clearChain _ => Unit

/-- The answer to a command. -/
abbrev Command.Answer (command : Command) : Type := Except Str command.Value

/-- Effect of a command, which some tables refuse. -/
def Command.effect {α : Type} (family : Family α) (table : Table) :
    (command : Command) → Option (command.Value × Table)
  | chainExists chain => some (decide (chain ∈ table.chains), table)
  | newChain chain => (table.newChain chain).map fun after => ((), after)
  | ruleExists chain args => some (table.hasRule chain args, table)
  | insert chain args => (table.insertFirst chain args).map fun after => ((), after)
  | append chain args => (table.append family chain args).map fun after => ((), after)
  | delete chain args => (table.deleteRule chain args).map fun after => ((), after)
  | clearChain chain => some ((), table.clearChain chain)

/-- A table that nobody else edits, beside any record that the commands do not change. -/
def kernel {α : Type} (family : Family α) (ρ : Type) :
    World Command Command.Answer (Table × ρ) where
  respond command before answer after :=
    (∃ error, answer = .error error ∧ after = before) ∨
      ∃ value table, command.effect family before.1 = some (value, table) ∧ answer = .ok value ∧
        after = (table, before.2)
  interfere _ _ := False

/-- A run in which only refused commands fail. -/
def obey {α : Type} (family : Family α) {ρ : Type} (command : Command) (state : Table × ρ) :
    command.Answer × (Table × ρ) :=
  match command.effect family state.1 with
  | some (value, table) => (.ok value, (table, state.2))
  | none => (.error [], state)

theorem respond_obey {α ρ : Type} (family : Family α) (command : Command) (state : Table × ρ) :
    (kernel family ρ).respond command state (obey family command state).1
      (obey family command state).2 := by
  rw [obey]
  split
  case h_1 value table effect_eq => exact Or.inr ⟨value, table, effect_eq, rfl, rfl⟩
  case h_2 => exact Or.inl ⟨[], rfl, rfl⟩

/-- Issue a command; its error is returned after the given text. -/
def attempt (context : Str) (command : Command) :
    ExceptT Str (Script Command Command.Answer) command.Value :=
  ExceptT.mk (.call command fun answer =>
    .done (answer.mapError fun error => context ++ ": " ++ error))

section Rules

variable {α ρ : Type} {family : Family α} {always : Table × ρ → Prop}

theorem kernel_drifts {before after : Table × ρ} :
    (kernel family ρ).Drifts before after ↔ after = before := by
  constructor
  · intro drift
    cases drift with
    | refl => rfl
    | tail _ step => exact step.elim
  · rintro rfl
    exact .refl

theorem ensures_attempt {context : Str} {command : Command}
    {post : Except Str command.Value → Table × ρ → Prop} {state : Table × ρ} (now : always state)
    (failed : ∀ error, post (.error error) state)
    (effective : ∀ value table, command.effect family state.1 = some (value, table) →
      always (table, state.2) ∧ post (.ok value) (table, state.2)) :
    (kernel family ρ).Ensures always post (attempt context command).run state := by
  intro seen drift
  obtain rfl := kernel_drifts.mp drift
  refine ⟨now, fun answer after answers => ?_⟩
  obtain ⟨error, rfl, rfl⟩ | ⟨value, table, effect_eq, rfl, rfl⟩ := answers
  · exact ⟨now, failed _⟩
  · exact effective value table effect_eq

end Rules

/-- The target of a rule: what follows the last `-j` or `-g`. -/
def jumpTarget : List Str → Option Str
  | [] => none
  | flag :: rest =>
    match jumpTarget rest with
    | some target => some target
    | none => if flag = "-j" ∨ flag = "-g" then rest.head? else none

theorem jumpTarget_append (args : List Str) {rest : List Str} {target : Str}
    (found : jumpTarget rest = some target) : jumpTarget (args ++ rest) = some target := by
  induction args with
  | nil => exact found
  | cons flag args ih => rw [List.cons_append, jumpTarget, ih]

theorem jumpTarget_jumpTo (chain : Str) : jumpTarget (Table.jumpTo chain) = some chain := by
  have operand : jumpTarget [chain] = none := by simp [jumpTarget]
  rw [Table.jumpTo, jumpTarget, operand]
  rfl

theorem jumpTarget_option {target option : Str} (operand : Str)
    (target_name : target ≠ "-j" ∧ target ≠ "-g")
    (option_name : option ≠ "-j" ∧ option ≠ "-g") :
    jumpTarget ["-j", target, option, operand] = some target := by
  have last : jumpTarget [operand] = none := by simp [jumpTarget]
  have with_option : jumpTarget [option, operand] = none := by
    rw [jumpTarget, last]
    exact if_neg (not_or.mpr option_name)
  have with_target : jumpTarget [target, option, operand] = none := by
    rw [jumpTarget, with_option]
    exact if_neg (not_or.mpr target_name)
  rw [jumpTarget, with_target]
  rfl

/-- Targets that are not chains. -/
def extensionTargets : List Str :=
  ["ACCEPT", "DROP", "RETURN", "DNAT", "MASQUERADE", "NETMAP"]

namespace Table

/-- The target of a rule exists, if it has one. -/
def Resolves (table : Table) (args : List Str) : Prop :=
  ∀ target ∈ jumpTarget args, target ∈ extensionTargets ∨ target ∈ table.chains

instance (table : Table) (args : List Str) : Decidable (table.Resolves args) := by
  unfold Resolves
  cases jumpTarget args with
  | none => exact .isTrue fun target found => by cases found
  | some target =>
    exact decidable_of_iff (target ∈ extensionTargets ∨ target ∈ table.chains) (by simp)

/-- Some rule jumps to the chain. -/
def Refers (table : Table) (chain : Str) : Prop :=
  ∃ other ∈ table.chains, ∃ args ∈ table.rules other, jumpTarget args = some chain

instance (table : Table) (chain : Str) : Decidable (table.Refers chain) := by
  unfold Refers
  infer_instance

/-- `iptables -X`. -/
def deleteChain (table : Table) (chain : Str) : Option Table :=
  if chain ∈ table.chains ∧ table.rules chain = [] ∧ ¬ table.Refers chain then
    some ⟨table.chains.filter (· ≠ chain), Function.update table.rules chain []⟩
  else none

/-- `iptables -A`, as far as chains and targets matter. -/
def appendRule (table : Table) (chain : Str) (args : List Str) : Option Table :=
  if chain ∈ table.chains ∧ table.Resolves args then
    some { table with rules := Function.update table.rules chain (table.rules chain ++ [args]) }
  else none

/-- `iptables -I` at the first position, as far as chains and targets matter. -/
def insertRule (table : Table) (chain : Str) (args : List Str) : Option Table :=
  if table.Resolves args then table.insertFirst chain args else none

end Table

/-- The `iptables` commands of a program that manages chains. -/
inductive ChainCommand where
  | chainExists (chain : Str)
  | newChain (chain : Str)
  | ruleExists (chain : Str) (args : List Str)
  | insert (chain : Str) (args : List Str)
  | clearChain (chain : Str)
  | append (chain : Str) (args : List Str)
  | listChains
  | deleteChain (chain : Str)

namespace ChainCommand

/-- What a command returns. -/
abbrev Value : ChainCommand → Type
  | chainExists _ | ruleExists _ _ => Bool
  | newChain _ | insert _ _ | clearChain _ | append _ _ | deleteChain _ => Unit
  | listChains => List Str

/-- The answer to a command. -/
abbrev Answer (command : ChainCommand) : Type := Except Str command.Value

/-- Effect of a command, which some tables refuse. -/
def effect (table : Table) : (command : ChainCommand) → Option (command.Value × Table)
  | chainExists chain => some (decide (chain ∈ table.chains), table)
  | newChain chain => (table.newChain chain).map fun after => ((), after)
  | ruleExists chain args => some (table.hasRule chain args, table)
  | insert chain args => (table.insertRule chain args).map fun after => ((), after)
  | clearChain chain => some ((), table.clearChain chain)
  | append chain args => (table.appendRule chain args).map fun after => ((), after)
  | listChains => some (table.chains, table)
  | deleteChain chain => (table.deleteChain chain).map fun after => ((), after)

/-- A table that nobody else edits.  A refused command fails, in a faulty world any command may, and
what fails changes nothing. -/
def world (faulty : Prop) : World ChainCommand Answer Table where
  respond command before answer after :=
    ((faulty ∨ command.effect before = none) ∧ ∃ error, answer = .error error ∧ after = before) ∨
      ∃ value, command.effect before = some (value, after) ∧ answer = .ok value
  interfere _ _ := False

/-- A run in which only refused commands fail. -/
def obey (command : ChainCommand) (table : Table) : command.Answer × Table :=
  match command.effect table with
  | some (value, after) => (.ok value, after)
  | none => (.error [], table)

theorem respond_obey (command : ChainCommand) (table : Table) :
    (world False).respond command table (obey command table).1 (obey command table).2 := by
  rw [obey]
  split
  case h_1 value after effect_eq => exact Or.inr ⟨value, effect_eq, rfl⟩
  case h_2 refused => exact Or.inl ⟨Or.inr refused, [], rfl, rfl⟩

/-- Issue a command; its error is returned after the given text. -/
def attempt (context : Str) (command : ChainCommand) :
    ExceptT Str (Script ChainCommand Answer) command.Value :=
  ExceptT.mk (.call command fun answer =>
    .done (answer.mapError fun error => context ++ ": " ++ error))

theorem ensures_attempt {faulty : Prop} {always : Table → Prop} {context : Str}
    {command : ChainCommand} {returned : command.Value → Table → Prop} {table after : Table}
    {value : command.Value} (effect_eq : command.effect table = some (value, after))
    (now : always table) (later : always after) (post : returned value after) :
    (world faulty).Ensures always (World.byResult returned fun _ _ => faulty)
      (attempt context command).run table := by
  intro seen drift
  obtain rfl : seen = table := by
    cases drift with
    | refl => rfl
    | tail _ step => exact step.elim
  refine ⟨now, fun answer reached answers => ?_⟩
  obtain ⟨cause, error, rfl, rfl⟩ | ⟨found, found_eq, rfl⟩ := answers
  · refine ⟨now, cause.resolve_right fun refused => ?_⟩
    rw [effect_eq] at refused
    cases refused
  · obtain ⟨rfl, rfl⟩ := Prod.mk.inj (Option.some.inj (effect_eq.symm.trans found_eq))
    exact ⟨later, post⟩

end ChainCommand

end Netfilter
