import DatawerxMesh.Netfilter.Rules
import Mathlib.Data.List.Dedup

/-!
# The firewall compiler

`pkg/meshfw/plan.go`: the accepted combinations and the protected destinations of all policies as
sets, in which the empty text stands for any address.
-/

namespace DatawerxMesh.Meshfw

open Go

/-- A rule of a chain. -/
structure Rule where
  chain : Str
  args : List Str
  deriving DecidableEq

/-- The rules and the ranges left out. -/
structure Ruleset where
  rules : List Rule
  skipped : List Str
  deriving DecidableEq

/-- A port that a rule opens. -/
structure Port where
  protocol : Str
  port : Int
  deriving DecidableEq

/-- Clusters and ranges. -/
structure PeerSelector where
  clusterIDs : List Str
  cidrs : List Str
  deriving DecidableEq

/-- Sources and the ports open to them. -/
structure IngressRule where
  from_ : List PeerSelector
  ports : List Port
  deriving DecidableEq

/-- `Policy`, without the name that the compiler does not read. -/
structure Policy where
  destinations : List Str
  ingress : List IngressRule
  deriving DecidableEq

/-- A combination that is let in. -/
structure AcceptKey where
  src : Str
  dst : Str
  proto : Str
  port : Str
  deriving DecidableEq

/-- The collections of `fwBuilder`, with the keys of the two maps in order and with repetitions. -/
structure FwBuilder where
  accepts : List AcceptKey
  protectedDest : List Str
  skipped : List Str

/-- The chain of the firewall. -/
def fwChain : Str := "DWX-MESH-FW"

/-- `isIPv4CIDR`: it looks at the address and not at the network. -/
def isIPv4CIDR (c : Str) : Bool :=
  match parseCIDR c with
  | some (ip, _) => ip.to4.isSome
  | none => false

/-- The protocol in lower case, TCP by default. -/
def normalizeProto (p : Str) : Str :=
  let p := toLower (trimSpace p)
  if p = [] then "tcp" else p

/-- The text of a port. -/
def portStr (p : Int) : Str := itoaInt p

/-- `resolveSources`; the map has an empty list for an unknown cluster. -/
def resolveSources (from_ : List PeerSelector) (clusterCIDRs : Str → List Str) : List Str :=
  from_.flatMap fun selector => selector.clusterIDs.flatMap clusterCIDRs ++ selector.cidrs

namespace FwBuilder

/-- A range the filter table reads. -/
def keeps (c : Str) : Bool := !(c == []) && isIPv4CIDR c

/-- The texts that `keepIPv4` reports. -/
def reports (c : Str) : Bool := !(c == []) && !isIPv4CIDR c

/-- The ranges that are kept; the others are reported. -/
def keepIPv4 (b : FwBuilder) (list : List Str) (kind : Str) : FwBuilder × List Str :=
  ({ b with skipped := b.skipped ++ (list.filter reports).map fun c => kind ++ ":" ++ c },
    list.filter keeps)

/-- The keys that `addAccept` puts for one pair of addresses. -/
def acceptKeys (src dst : Str) (ports : List Port) : List AcceptKey :=
  if ports = [] then [⟨src, dst, [], []⟩]
  else ports.map fun pt => ⟨src, dst, normalizeProto pt.protocol, portStr pt.port⟩

/-- The combinations of a source and a destination. -/
def addAccept (b : FwBuilder) (src dst : Str) (ports : List Port) : FwBuilder :=
  { b with accepts := b.accepts ++ acceptKeys src dst ports }

/-- The combinations of a rule. -/
def addIngress (clusterCIDRs : Str → List Str) (b : FwBuilder) (ing : IngressRule)
    (dests : List Str) : FwBuilder :=
  let (b, srcs) := b.keepIPv4 (resolveSources ing.from_ clusterCIDRs) "from"
  dests.foldl (fun b d => srcs.foldl (fun b s => b.addAccept s d ing.ports) b) b

/-- `fwBuilder.addPolicy`: no destinations stand for all of them, none that is usable for none. -/
def addPolicy (clusterCIDRs : Str → List Str) (b : FwBuilder) (p : Policy) : FwBuilder :=
  let (b, dests) := b.keepIPv4 p.destinations "dest"
  let dests := if p.destinations = [] then [[]] else dests
  if dests = [] then b
  else
    let b := { b with protectedDest := b.protectedDest ++ dests }
    p.ingress.foldl (fun b ing => b.addIngress clusterCIDRs ing dests) b

end FwBuilder

/-- The arguments that let a combination in. -/
def acceptArgs (key : AcceptKey) : List Str :=
  (if key.src ≠ [] then [str "-s", key.src] else []) ++
  (if key.dst ≠ [] then [str "-d", key.dst] else []) ++
  (if key.proto ≠ [] then
    [str "-p", key.proto] ++
      (if key.port ≠ [] then [str "-m", key.proto, str "--dport", key.port] else [])
  else []) ++
  [str "-j", str "ACCEPT"]

/-- The arguments that drop the rest. -/
def dropArgs (dst : Str) : List Str :=
  if dst = [] then ["-j", "DROP"] else ["-d", dst, "-j", "DROP"]

/-- Arguments of the rule that lets replies through. -/
def conntrackArgs : List Str :=
  ["-m", "conntrack", "--ctstate", "RELATED,ESTABLISHED", "-j", "ACCEPT"]

/-- The order of combinations. -/
def lessAccept : AcceptKey → AcceptKey → Bool :=
  Sorting.byField AcceptKey.dst less <| Sorting.byField AcceptKey.src less <|
    Sorting.byField AcceptKey.proto less fun a b => less a.port b.port

/-- `lessDest`: the empty text comes last. -/
def lessDest (a b : Str) : Bool :=
  if a = [] then false else if b = [] then true else less a b

/-- `dedupe`: drop texts that equal their neighbour. -/
def dedupe : List Str → List Str
  | [] => []
  | [last] => [last]
  | first :: second :: rest =>
    if first = second then dedupe (second :: rest) else first :: dedupe (second :: rest)

/-- Accepted combinations come before drops. -/
def FwBuilder.ruleset (b : FwBuilder) : Ruleset where
  rules := ⟨fwChain, conntrackArgs⟩ ::
    ((Sorting.sort lessAccept b.accepts.dedup).map (fun k => ⟨fwChain, acceptArgs k⟩) ++
      (Sorting.sort lessDest b.protectedDest.dedup).map fun d => ⟨fwChain, dropArgs d⟩)
  skipped := dedupe (sortStrings b.skipped)

/-- The rules of all policies. -/
def buildFirewall (policies : List Policy) (clusterCIDRs : Str → List Str) : Ruleset :=
  (policies.foldl (FwBuilder.addPolicy clusterCIDRs) ⟨[], [], []⟩).ruleset

end DatawerxMesh.Meshfw
