import DatawerxMesh.Library.Outcome
import DatawerxMesh.Library.Scheduling
import DatawerxMesh.NatPlane.Rules
import DatawerxMesh.Netfilter.Commands

/-!
# The nat manager

`pkg/nat/manager.go`: every sync makes sure that its chains exist and are jumped to, flushes them
and appends the planned rules.
-/

namespace DatawerxMesh.NatPlane

open Go Program Netfilter Scheduling Function List

variable {table : Table} {chain other builtin : Str}

/-- Packets that arrive. -/
def preroutingChain : Str := "PREROUTING"

/-- Packets that leave. -/
def postroutingChain : Str := "POSTROUTING"

/-- Errors of the syncs.  The operations that only look at a table do not fail, nor does
flushing. -/
inductive NatError where
  | creating (chain : Str)
  | installing (builtin : Str)
  | appending (rule : Rule)
  deriving DecidableEq

/-- Error texts of the syncs, around the text of the failed command. -/
def NatError.text (cause : Str) : NatError → Str
  | creating chain => "nat: creating chain " ++ chain ++ ": " ++ cause
  | installing builtin => "nat: installing " ++ builtin ++ " hook: " ++ cause
  | appending rule =>
    "nat: appending to " ++ rule.chain ++ " " ++ sprintSlice rule.args ++ ": " ++ cause

/-- The result of a command, or the error that wraps its failure. -/
def orFail {α : Type} (error : NatError) : Option α → Outcome NatError α
  | some value => .ok value
  | none => .err error

/-- A chain is created if it is missing. -/
def ensureChain (table : Table) (chain : Str) : Outcome NatError Table :=
  if chain ∈ table.chains then .ok table else orFail (.creating chain) (table.newChain chain)

/-- The jump to a chain. -/
def ensureHook (table : Table) (builtin target : Str) : Outcome NatError Table :=
  if table.hasRule builtin (Table.jumpTo target) then .ok table
  else orFail (.installing builtin) (table.insertFirst builtin (Table.jumpTo target))

section Family

variable {α : Type} (family : Family α)

/-- The append loop of the syncs. -/
def appendRules (table : Table) (rules : List Rule) : Outcome NatError Table :=
  rules.foldlM (fun table rule =>
    orFail (.appending rule) (table.append family rule.chain rule.args)) table

/-- The chains of the remapping. -/
def syncRemap (table : Table) (entries : List RemapEntry) : Outcome NatError Table := do
  let rules := buildRemapRules entries
  let table ← ensureChain table remapPreChain
  let table ← ensureHook table preroutingChain remapPreChain
  let table ← ensureChain table remapPostChain
  let table ← ensureHook table postroutingChain remapPostChain
  let table := table.clearChain remapPreChain
  let table := table.clearChain remapPostChain
  appendRules family table rules

/-- The chain of the exemptions. -/
def syncNoMasq (table : Table) (locals remotes : List Str) : Outcome NatError Table := do
  let rules := buildNoMasqRules locals remotes
  let table ← ensureChain table noMasqChain
  let table ← ensureHook table postroutingChain noMasqChain
  let table := table.clearChain noMasqChain
  appendRules family table rules

/-- The chain of the gateway. -/
def syncGatewayMasq (table : Table) (clientCIDRs destCIDRs : List Str) :
    Outcome NatError Table := do
  let rules := buildGatewayMasqRules clientCIDRs destCIDRs
  let table ← ensureChain table gatewayMasqChain
  let table ← ensureHook table postroutingChain gatewayMasqChain
  let table := table.clearChain gatewayMasqChain
  appendRules family table rules

end Family

/-- `Manager`: the IPv4 table, and the IPv6 table when `ip6tables` is available. -/
structure Manager where
  ipt : Table
  ipt6 : Option Table

/-- Run a sync on the IPv4 table and then on the IPv6 table, if there is one. -/
def Manager.dispatch (m : Manager) (sync4 sync6 : Table → Outcome NatError Table) :
    Outcome NatError Manager := do
  let ipt ← sync4 m.ipt
  match m.ipt6 with
  | none => return { ipt, ipt6 := none }
  | some table =>
    let table ← sync6 table
    return { ipt, ipt6 := some table }

/-- The IPv4 or the IPv6 part of a list of texts. -/
def ofFamily (six : Bool) (cidrs : List Str) : List Str :=
  cidrs.filter fun cidr => isIPv6 cidr == six

/-- The IPv4 or the IPv6 part of a list of entries, by their virtual range. -/
def entriesOf (six : Bool) (entries : List RemapEntry) : List RemapEntry :=
  entries.filter fun entry => isIPv6 entry.virtual == six

/-- The entries of each family. -/
def Manager.syncRemap (m : Manager) (entries : List RemapEntry) : Outcome NatError Manager :=
  m.dispatch (NatPlane.syncRemap ipv4 · (entriesOf false entries))
    (NatPlane.syncRemap ipv6 · (entriesOf true entries))

/-- The exemptions of each family. -/
def Manager.syncMeshNoMasq (m : Manager) (locals remotes : List Str) : Outcome NatError Manager :=
  m.dispatch (syncNoMasq ipv4 · (ofFamily false locals) (ofFamily false remotes))
    (syncNoMasq ipv6 · (ofFamily true locals) (ofFamily true remotes))

/-- The gateway rules of each family. -/
def Manager.syncGatewayMasq (m : Manager) (clientCIDRs destCIDRs : List Str) :
    Outcome NatError Manager :=
  m.dispatch (NatPlane.syncGatewayMasq ipv4 · (ofFamily false clientCIDRs)
    (ofFamily false destCIDRs))
    (NatPlane.syncGatewayMasq ipv6 · (ofFamily true clientCIDRs) (ofFamily true destCIDRs))

/-- The table with a chain. -/
def withChain (table : Table) (chain : Str) : Table :=
  if chain ∈ table.chains then table
  else ⟨table.chains ++ [chain], Function.update table.rules chain []⟩

/-- A table with a jump registered in a built-in chain. -/
def withHook (table : Table) (builtin target : Str) : Table where
  chains := table.chains
  rules := Function.update table.rules builtin
    (register (table.rules builtin) (Table.jumpTo target))

/-- A table with rules appended to their chains. -/
def withRules (table : Table) (rules : List Rule) : Table :=
  { table with rules := fun chain => table.rules chain ++ chainArgs chain rules }

theorem rules_withRules (table : Table) (rules : List Rule) (chain : Str) :
    (withRules table rules).rules chain = table.rules chain ++ chainArgs chain rules :=
  rfl

theorem rules_withChain (apart : other ≠ chain) :
    (withChain table chain).rules other = table.rules other := by
  rw [withChain]
  split
  · rfl
  · exact update_of_ne apart _ _

theorem rules_withHook_self (table : Table) (builtin target : Str) :
    (withHook table builtin target).rules builtin =
      register (table.rules builtin) (Table.jumpTo target) :=
  update_self ..

theorem rules_withHook_of_ne {target : Str} (differs : chain ≠ builtin) :
    (withHook table builtin target).rules chain = table.rules chain :=
  update_of_ne differs ..

theorem withHook_eq_self {target : Str} (present : Table.jumpTo target ∈ table.rules builtin) :
    withHook table builtin target = table := by
  rw [withHook, register, if_pos present, update_eq_self]

theorem withRules_singleton (table : Table) (rule : Rule) :
    withRules table [rule] = { table with
        rules := Function.update table.rules rule.chain
          (table.rules rule.chain ++ [rule.args]) } := by
  rw [withRules]
  congr 1
  funext chain
  by_cases same : rule.chain = chain
  · subst same
    simp [chainArgs]
  · simp [chainArgs, same, update_of_ne (Ne.symm same)]

theorem ensureChain_eq (table : Table) (chain : Str) :
    ensureChain table chain = .ok (withChain table chain) := by
  rw [ensureChain, withChain]
  split
  · rfl
  · rename_i missing
    rw [Table.newChain, if_neg missing]
    rfl

theorem ensureHook_eq (exists_builtin : builtin ∈ table.chains) (target : Str) :
    ensureHook table builtin target = .ok (withHook table builtin target) := by
  rw [ensureHook, Table.hasRule, withHook, register]
  by_cases present : Table.jumpTo target ∈ table.rules builtin
  · simp [present, exists_builtin]
  · simp [present, exists_builtin, Table.insertFirst, orFail]

theorem mem_chains_withChain :
    other ∈ (withChain table chain).chains ↔ other ∈ table.chains ∨ other = chain := by
  rw [withChain, apply_ite Table.chains]
  exact Accumulation.mem_add_absent (by simp) other

theorem mem_chains_clearChain :
    other ∈ (table.clearChain chain).chains ↔ other ∈ table.chains ∨ other = chain :=
  Accumulation.mem_add_absent (by simp) other

theorem withRules_withRules (table : Table) (first second : List Rule) :
    withRules (withRules table first) second = withRules table (first ++ second) := by
  simp only [withRules, chainArgs, filter_append, map_append, append_assoc]

theorem appendRules_eq_ok {α : Type} {family : Family α} {after : Table} {rules : List Rule}
    (present : ∀ rule ∈ rules, rule.chain ∈ table.chains) :
    appendRules family table rules = .ok after ↔
      (∀ rule ∈ rules, accepts family rule.args = true) ∧ after = withRules table rules := by
  induction rules generalizing table with
  | nil =>
    have unchanged : withRules table [] = table := by simp [withRules, chainArgs]
    rw [unchanged]
    simpa [appendRules] using eq_comm
  | cons rule rest ih =>
    have in_chains := present rule mem_cons_self
    rw [appendRules, foldlM_cons]
    by_cases accepted : accepts family rule.args = true
    · have appended : table.append family rule.chain rule.args =
          some (withRules table [rule]) := by
        rw [Table.append, if_pos ⟨in_chains, accepted⟩, withRules_singleton]
      have rest_present : ∀ other ∈ rest, other.chain ∈ (withRules table [rule]).chains :=
        fun other mem => present other (mem_cons_of_mem _ mem)
      simp only [appended]
      refine (ih rest_present).trans ?_
      rw [withRules_withRules]
      simp [accepted]
    · have refused : table.append family rule.chain rule.args = none := by
        rw [Table.append, if_neg fun both => accepted both.2]
      simp [refused, orFail, accepted]

end DatawerxMesh.NatPlane
