import DatawerxMesh.Meshfw.Correctness
import DatawerxMesh.Meshfw.Manager

/-!
# Guarded hook chains

A hook chain either has the guard jump in front of the firewall jump, and then drops everything, or
only the firewall jump, and then passes what the firewall chain passes.
-/

namespace DatawerxMesh.Meshfw

open Go Program Netfilter List

variable (wgIface : Str) {table : Table} {hook : Str}

/-- The arguments of the rules. -/
def Ruleset.args (rs : Ruleset) : List (List Str) := rs.rules.map Rule.args

/-- Decision of the rules of the manager on a packet from the mesh device, in a hook chain. -/
def meshDecision (table : Table) (hook : Str) (packet : Packet (BitVec 32)) :
    Option (Decision (BitVec 32)) :=
  (table.rules hook).findSome? fun args =>
    if args = hookSpec wgIface fwChain then
      evalRules filter4 .postrouting noJump (table.rules fwChain) packet
    else if args = hookSpec wgIface fwChainGuard then
      evalRules filter4 .postrouting noJump (table.rules fwChainGuard) packet
    else none

/-- A packet from the mesh device is not dropped in a hook chain. -/
def Passes (table : Table) (hook : Str) (packet : Packet (BitVec 32)) : Prop :=
  meshDecision wgIface table hook packet ≠ some .drop

/-- A filter table as `NewManager` prepares it. -/
structure Prepared (table : Table) : Prop where
  chains : ∀ chain ∈ fwChain :: fwChainGuard :: hookChains, chain ∈ table.chains
  empty : table.rules fwChain = []
  guard : table.rules fwChainGuard = [guardDrop]
  hooked : ∀ hook ∈ hookChains, (table.rules hook).count (hookSpec wgIface fwChain) = 1
  unguarded : ∀ hook ∈ hookChains, hookSpec wgIface fwChainGuard ∉ table.rules hook

/-- The jumps of the manager in a chain. -/
def ownJumps (rules : List (List Str)) : List (List Str) :=
  rules.filter fun args =>
    args = hookSpec wgIface fwChain ∨ args = hookSpec wgIface fwChainGuard

/-- Only the jump to the firewall chain is there. -/
def Unguarded (table : Table) (hook : Str) : Prop :=
  ownJumps wgIface (table.rules hook) = [hookSpec wgIface fwChain]

/-- The jump to the guard chain stands in front. -/
def Guarded (table : Table) (hook : Str) : Prop :=
  ownJumps wgIface (table.rules hook) = [hookSpec wgIface fwChainGuard, hookSpec wgIface fwChain]

/-- The chains of the manager are there, and the guard chain drops everything. -/
structure Infra (table : Table) : Prop where
  chains : ∀ chain ∈ fwChain :: fwChainGuard :: hookChains, chain ∈ table.chains
  guard : table.rules fwChainGuard = [guardDrop]

/-- Every hook chain is guarded, or the firewall chain has acceptable contents. -/
structure FailsClosed (acceptable : List (List Str) → Prop) (table : Table) : Prop
    extends Infra table where
  hooks : ∀ hook ∈ hookChains, Guarded wgIface table hook ∨
    Unguarded wgIface table hook ∧ acceptable (table.rules fwChain)

theorem hookSpec_ne : hookSpec wgIface fwChainGuard ≠ hookSpec wgIface fwChain := by
  simp only [hookSpec, ne_eq, List.cons.injEq]
  decide

theorem ownJumps_cons_guard (rules : List (List Str)) :
    ownJumps wgIface (hookSpec wgIface fwChainGuard :: rules) =
      hookSpec wgIface fwChainGuard :: ownJumps wgIface rules := by
  simp [ownJumps]

theorem ownJumps_erase_guard (rules : List (List Str)) :
    ownJumps wgIface (rules.erase (hookSpec wgIface fwChainGuard)) =
      (ownJumps wgIface rules).erase (hookSpec wgIface fwChainGuard) := by
  simp [ownJumps, erase_filter]

variable {rules : List (List Str)}

theorem mem_ownJumps_guard :
    hookSpec wgIface fwChainGuard ∈ ownJumps wgIface rules ↔
      hookSpec wgIface fwChainGuard ∈ rules := by
  simp [ownJumps]

theorem mem_ownJumps_fw :
    hookSpec wgIface fwChain ∈ ownJumps wgIface rules ↔ hookSpec wgIface fwChain ∈ rules := by
  simp [ownJumps]

variable {wgIface}

theorem findSome?_filter {γ δ : Type} {decision : γ → Option δ} {own : γ → Bool}
    (others : ∀ item, own item = false → decision item = none) (items : List γ) :
    (items.filter own).findSome? decision = items.findSome? decision := by
  induction items with
  | nil => rfl
  | cons item rest ih =>
    cases kept : own item with
    | false => rw [filter_cons_of_neg (by simp [kept]), ih, List.findSome?_cons_of_isNone
        (by simp [others item kept])]
    | true => rw [filter_cons_of_pos kept, List.findSome?_cons, List.findSome?_cons, ih]

theorem meshDecision_eq (table : Table) (hook : Str) (packet : Packet (BitVec 32)) :
    meshDecision wgIface table hook packet =
      (ownJumps wgIface (table.rules hook)).findSome? fun args =>
        if args = hookSpec wgIface fwChain then
          evalRules filter4 .postrouting noJump (table.rules fwChain) packet
        else if args = hookSpec wgIface fwChainGuard then
          evalRules filter4 .postrouting noJump (table.rules fwChainGuard) packet
        else none := by
  refine (findSome?_filter (fun args foreign => ?_) (table.rules hook)).symm
  rw [decide_eq_false_iff_not, not_or] at foreign
  rw [if_neg foreign.1, if_neg foreign.2]

theorem not_passes_of_guarded (infra : Infra table) (guarded : Guarded wgIface table hook)
    (packet : Packet (BitVec 32)) : ¬ Passes wgIface table hook packet := by
  have dropped : evalRules filter4 .postrouting noJump [guardDrop] packet = some .drop := by
    have drop_eq := evalRule_dropArgs [] packet
    simp only [dropArgs, if_true, matchesAddress] at drop_eq
    simp [evalRules, guardDrop, drop_eq]
  rw [Passes, meshDecision_eq, guarded, infra.guard, List.findSome?_cons, if_neg (hookSpec_ne
    wgIface), dropped]
  simp

theorem passes_of_unguarded {rs : Ruleset} (unguarded : Unguarded wgIface table hook)
    (holds : table.rules fwChain = rs.args) (packet : Packet (BitVec 32)) :
    Passes wgIface table hook packet ↔ rs.permits packet = true := by
  rw [Passes, meshDecision_eq, unguarded, holds, Ruleset.permits, Ruleset.args]
  cases evalRules filter4 .postrouting noJump (rs.rules.map Rule.args) packet <;> simp

theorem Unguarded.counts (unguarded : Unguarded wgIface table hook) :
    hookSpec wgIface fwChainGuard ∉ table.rules hook ∧
      (table.rules hook).count (hookSpec wgIface fwChain) = 1 := by
  constructor
  · rw [← mem_ownJumps_guard, unguarded]
    simpa using hookSpec_ne wgIface
  · have counted : (ownJumps wgIface (table.rules hook)).count (hookSpec wgIface fwChain) =
        (table.rules hook).count (hookSpec wgIface fwChain) :=
      count_filter (by simp)
    rw [← counted, unguarded, count_singleton_self]

theorem Guarded.hasRule (guarded : Guarded wgIface table hook) (present : hook ∈ table.chains) :
    table.hasRule hook (hookSpec wgIface fwChainGuard) = true := by
  have there : hookSpec wgIface fwChainGuard ∈ table.rules hook := by
    rw [← mem_ownJumps_guard, guarded]
    exact mem_cons_self
  rw [Table.hasRule, decide_eq_true there, decide_eq_true present]
  rfl

theorem Unguarded.hasRule (unguarded : Unguarded wgIface table hook) :
    table.hasRule hook (hookSpec wgIface fwChainGuard) = false := by
  rw [Table.hasRule, decide_eq_false unguarded.counts.1, Bool.and_false]

theorem Prepared.failsClosed (prepared : Prepared wgIface table) :
    FailsClosed wgIface (· = []) table where
  chains := prepared.chains
  guard := prepared.guard
  hooks hook mem := by
    refine Or.inr ⟨?_, prepared.empty⟩
    have only_fw : ownJumps wgIface (table.rules hook) =
        (table.rules hook).filter fun args => args = hookSpec wgIface fwChain := by
      refine filter_congr fun args in_rules => ?_
      have not_guard : args ≠ hookSpec wgIface fwChainGuard := fun same =>
        prepared.unguarded hook mem (same ▸ in_rules)
      simp [not_guard]
    rw [Unguarded, only_fw, filter_eq, prepared.hooked hook mem]
    rfl

theorem FailsClosed.mono {acceptable acceptable' : List (List Str) → Prop}
    (closed : FailsClosed wgIface acceptable table)
    (weaken : acceptable (table.rules fwChain) → acceptable' (table.rules fwChain)) :
    FailsClosed wgIface acceptable' table :=
  ⟨closed.toInfra, fun hook mem => (closed.hooks hook mem).imp_right (And.imp_right weaken)⟩

theorem hook_ne_fwChain (mem : hook ∈ hookChains) : hook ≠ fwChain := by
  rintro rfl
  exact absurd mem (by decide)

theorem hook_ne_fwChainGuard (mem : hook ∈ hookChains) : hook ≠ fwChainGuard := by
  rintro rfl
  exact absurd mem (by decide)

/-- A chain is overwritten. -/
def setRules (table : Table) (chain : Str) (rules : List (List Str)) : Table :=
  { table with rules := Function.update table.rules chain rules }

@[simp] theorem rules_setRules_self (table : Table) (chain : Str) (rules : List (List Str)) :
    (setRules table chain rules).rules chain = rules := Function.update_self ..

theorem rules_setRules_of_ne {chain other : Str} (differs : other ≠ chain) (table : Table)
    (rules : List (List Str)) : (setRules table chain rules).rules other = table.rules other :=
  Function.update_of_ne differs ..

theorem Infra.setRules (infra : Infra table) {chain : Str} (other : chain ≠ fwChainGuard)
    (rules : List (List Str)) :
    Infra (setRules table chain rules) where
  chains := infra.chains
  guard := by rw [rules_setRules_of_ne (Ne.symm other), infra.guard]

theorem FailsClosed.setHook {acceptable : List (List Str) → Prop}
    (closed : FailsClosed wgIface acceptable table) (mem : hook ∈ hookChains)
    (shape : ownJumps wgIface rules = [hookSpec wgIface fwChainGuard, hookSpec wgIface fwChain] ∨
      ownJumps wgIface rules = [hookSpec wgIface fwChain] ∧ acceptable (table.rules fwChain)) :
    FailsClosed wgIface acceptable (setRules table hook rules) := by
  refine ⟨closed.toInfra.setRules (hook_ne_fwChainGuard mem) rules, fun other in_hooks => ?_⟩
  rw [Guarded, Unguarded, rules_setRules_of_ne (Ne.symm (hook_ne_fwChain mem))]
  by_cases same : other = hook
  · rw [same, rules_setRules_self]
    exact shape
  · rw [rules_setRules_of_ne same]
    exact closed.hooks other in_hooks

theorem FailsClosed.setFwChain (closed : FailsClosed wgIface (fun _ => False) table)
    (rules : List (List Str)) :
    FailsClosed wgIface (fun _ => False) (setRules table fwChain rules) := by
  refine ⟨closed.toInfra.setRules (by decide) rules, fun hook mem => ?_⟩
  rw [Guarded, rules_setRules_of_ne (hook_ne_fwChain mem)]
  exact Or.inl ((closed.hooks hook mem).resolve_right fun open_ => open_.2)

end DatawerxMesh.Meshfw
