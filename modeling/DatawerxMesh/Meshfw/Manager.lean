import DatawerxMesh.Meshfw.Plan
import DatawerxMesh.Netfilter.Commands

/-!
# The firewall manager

`pkg/meshfw/manager.go`: while the firewall chain is being rebuilt, traffic from the mesh device is
diverted to a chain that drops everything.
-/

namespace DatawerxMesh.Meshfw

open Go Program Netfilter

/-- The built-in chains that lead to the firewall. -/
def hookChains : List Str := ["FORWARD", "INPUT"]

/-- The chain that drops everything. -/
def fwChainGuard : Str := "DWX-MESH-FW-GUARD"

/-- The rule of the guard chain. -/
def guardDrop : List Str := ["-j", "DROP"]

/-- Arguments of the jump to a chain for packets from the mesh device. -/
def hookSpec (wgIface chain : Str) : List Str := ["-i", wgIface, "-j", chain]

/-- A program of commands that may fail. -/
abbrev Procedure := ExceptT Str (Script Command Command.Answer) Unit

/-- A chain is created if it is missing. -/
def ensureChain (chain : Str) : Procedure := do
  let present ← attempt ("meshfw: checking chain " ++ chain) (.chainExists chain)
  if !present then attempt ("meshfw: creating chain " ++ chain) (.newChain chain)

/-- The guard chain drops everything. -/
def ensureGuardChain : Procedure := do
  ensureChain fwChainGuard
  let present ← attempt "meshfw: checking guard DROP" (.ruleExists fwChainGuard guardDrop)
  if !present then
    attempt "meshfw: installing guard DROP" (.append fwChainGuard guardDrop)

/-- The jump to the firewall. -/
def ensureHook (wgIface builtin : Str) : Procedure := do
  let spec := hookSpec wgIface fwChain
  let present ←
    attempt ("meshfw: checking " ++ builtin ++ " hook") (.ruleExists builtin spec)
  if !present then
    attempt ("meshfw: installing " ++ builtin ++ " hook") (.insert builtin spec)

/-- The chains and the jumps to them. -/
def ensureInfra (wgIface : Str) : Procedure := do
  ensureChain fwChain
  ensureGuardChain
  hookChains.forM (ensureHook wgIface)

/-- `NewManager`, given whether the tables could be opened. -/
def newManager (opened : Except Str Unit) (wgIface : Str) : Procedure :=
  match opened with
  | .error error => throw ("meshfw: opening iptables: " ++ error)
  | .ok () => ensureInfra wgIface

/-- The loop body of `Manager.engageGuard`. -/
def engageHook (wgIface hook : Str) : Procedure := do
  let spec := hookSpec wgIface fwChainGuard
  let present ←
    attempt ("meshfw: checking " ++ hook ++ " guard hook") (.ruleExists hook spec)
  if !present then
    attempt ("meshfw: engaging " ++ hook ++ " guard") (.insert hook spec)

/-- Traffic from the mesh is diverted. -/
def engageGuard (wgIface : Str) : Procedure := hookChains.forM (engageHook wgIface)

/-- The loop body of `Manager.disengageGuard`. -/
def disengageHook (wgIface hook : Str) : Procedure := do
  let spec := hookSpec wgIface fwChainGuard
  let present ←
    attempt ("meshfw: checking " ++ hook ++ " guard hook") (.ruleExists hook spec)
  if present then
    attempt ("meshfw: disengaging " ++ hook ++ " guard") (.delete hook spec)

/-- Traffic reaches the firewall again. -/
def disengageGuard (wgIface : Str) : Procedure := hookChains.forM (disengageHook wgIface)

/-- The append loop of `Manager.SyncFirewall`. -/
def appendRule (rule : Rule) : Procedure :=
  attempt ("meshfw: appending to " ++ rule.chain ++ " " ++ sprintSlice rule.args)
    (.append rule.chain rule.args)

/-- The chain is rebuilt behind the guard. -/
def syncFirewall (wgIface : Str) (rs : Ruleset) : Procedure := do
  ensureInfra wgIface
  engageGuard wgIface
  attempt ("meshfw: flushing " ++ fwChain) (.clearChain fwChain)
  rs.rules.forM appendRule
  (disengageGuard wgIface).adapt fun error => "meshfw: lifting rebuild guard: " ++ error

end DatawerxMesh.Meshfw
