import DatawerxMesh.Controllers.PeerSources
import DatawerxMesh.Library.Script
import Mathlib.Data.List.Induction

/-!
# The policy reconciler

`pkg/controllers/meshnetworkpolicy_controller.go`: a cluster ID in a policy stands for the CIDRs
that the peers of that cluster advertise, also where these are remapped.
-/

namespace DatawerxMesh.Controllers

open Go Addressing Program Netfilter Meshfw DatawerxMesh.Topology

/-- A port that a rule opens. -/
structure MeshNetworkPolicyPort where
  protocol : Str
  port : Int
  deriving DecidableEq

/-- Clusters and ranges that traffic may come from. -/
structure MeshPeerSelector where
  clusterIDs : List Str
  cidrs : List Str
  deriving DecidableEq

/-- Sources and the ports open to them. -/
structure MeshIngressRule where
  from_ : List MeshPeerSelector
  ports : List MeshNetworkPolicyPort
  deriving DecidableEq

/-- Protected ranges and the traffic let in. -/
structure MeshNetworkPolicySpec where
  destinations : List Str
  ingress : List MeshIngressRule
  deriving DecidableEq

/-- `MeshNetworkPolicyPhase`; a fresh object has none. -/
inductive MeshNetworkPolicyPhase where
  | unset
  | pending
  | ready
  | error
  deriving DecidableEq

/-- What the reconciler reports. -/
structure MeshNetworkPolicyStatus where
  phase : MeshNetworkPolicyPhase
  message : Str
  observedGeneration : Int
  deriving DecidableEq

/-- A policy object. -/
structure MeshNetworkPolicy where
  name : Str
  generation : Int
  spec : MeshNetworkPolicySpec
  status : MeshNetworkPolicyStatus
  deriving DecidableEq

/-- The input of the compiler. -/
def toPolicies (items : List MeshNetworkPolicy) : List Policy :=
  items.map fun p => {
    destinations := p.spec.destinations
    ingress := p.spec.ingress.map fun ing => {
      from_ := ing.from_.map fun selector => ⟨selector.clusterIDs, selector.cidrs⟩
      ports := ing.ports.map fun port => ⟨port.protocol, port.port⟩ } }

/-- The map of `Reconcile`: peers without a cluster ID are passed over. -/
def clusterCIDRs (peers : List MeshPeer) : Str → List Str :=
  peers.foldl (fun cidrs peer =>
    if peer.spec.clusterID = [] then cidrs
    else Function.update cidrs peer.spec.clusterID
      (cidrs peer.spec.clusterID ++ peer.spec.allCIDRs)) fun _ => []

/-- The ruleset that `Reconcile` compiles. -/
def policyRuleset (items : List MeshNetworkPolicy) (peers : List MeshPeer) : Ruleset :=
  buildFirewall (toPolicies items) (clusterCIDRs peers)

/-- What `Reconcile` calls: the API server and the data plane. -/
inductive PolicyCall where
  | listPolicies
  | listPeers
  | syncFirewall (rs : Ruleset)
  | patchStatus (policy : MeshNetworkPolicy)

/-- Answers; an error is given by its text. -/
abbrev PolicyCall.Answer : PolicyCall → Type
  | listPolicies => Except Str (List MeshNetworkPolicy)
  | listPeers => Except Str (List MeshPeer)
  | syncFirewall _ | patchStatus _ => Except Str Unit

/-- `patchAll`: errors are only logged. -/
def patchAll (phase : MeshNetworkPolicyPhase) (message : Str) :
    List MeshNetworkPolicy → Script PolicyCall PolicyCall.Answer Unit
  | [] => pure ()
  | p :: rest =>
    if p.status = ⟨phase, message, p.generation⟩ then patchAll phase message rest
    else .call (.patchStatus { p with status := ⟨phase, message, p.generation⟩ }) fun _ =>
      patchAll phase message rest

/-- The status message of a programmed policy. -/
def skippedMessage (rs : Ruleset) : Str :=
  if rs.skipped = [] then []
  else "skipped non-IPv4 inputs (IPv4 data plane): " ++ join ", " rs.skipped

/-- `MeshNetworkPolicyReconciler.Reconcile`. -/
def reconcilePolicies : Script PolicyCall PolicyCall.Answer (Except Str Unit) :=
  .call .listPolicies fun
  | .error error => pure (.error ("listing MeshNetworkPolicies: " ++ error))
  | .ok items =>
    .call .listPeers fun
    | .error error => pure (.error ("listing MeshPeers: " ++ error))
    | .ok peers =>
      let rs := policyRuleset items peers
      .call (.syncFirewall rs) fun
      | .error error => do
          patchAll .error ("programming firewall: " ++ error) items
          pure (.error ("syncing mesh firewall: " ++ error))
      | .ok () => do
          patchAll .ready (skippedMessage rs) items
          pure (.ok ())

theorem mem_clusterCIDRs {peers : List MeshPeer} {id cidr : Str} :
    cidr ∈ clusterCIDRs peers id ↔
      id ≠ [] ∧ ∃ peer ∈ peers, peer.spec.clusterID = id ∧ cidr ∈ peer.spec.allCIDRs := by
  rw [clusterCIDRs]
  induction peers using List.reverseRecOn with
  | nil => simp
  | append_singleton peers peer ih =>
    rw [List.foldl_append, List.foldl_cons, List.foldl_nil]
    split
    case isTrue keyless =>
      rw [ih]
      refine and_congr_right fun named => ?_
      have other : peer.spec.clusterID ≠ id := by
        rw [keyless]
        exact Ne.symm named
      simp [or_and_right, exists_or, other]
    case isFalse keyed =>
      by_cases same : peer.spec.clusterID = id
      · subst same
        rw [Function.update_self, List.mem_append, ih]
        simp [keyed, or_and_right, exists_or]
      · rw [Function.update_of_ne (Ne.symm same), ih]
        simp [or_and_right, exists_or, same]

/-- Some ingress rule of a policy that selects the destination admits the packet. -/
def Admitted (policies : List Policy) (clusterCIDRs : Str → List Str)
    (source destination : BitVec 32) (protocol : Protocol) (port : Nat) : Prop :=
  ∃ p ∈ policies, p.Selects destination ∧ ∃ ing ∈ p.ingress,
    ing.AdmitsSource clusterCIDRs source ∧ ing.AdmitsPort protocol port

/-- New packets that can come from a peer reach the destinations of a policy. -/
def AdmitsPeer (rs : Ruleset) (allowedIPs : List Str) (policy : Policy) : Prop :=
  ∀ packet : Packet (BitVec 32), packet.state = .new →
    (∃ text ∈ allowedIPs, InCIDR text packet.source) → policy.Selects packet.destination →
    rs.permits packet = true

/-- A rule without ports that names the cluster of a peer admits the peer exactly when the blocks of
the pool under which the peer appears are admitted as well. -/
theorem cluster_selector_admits_iff (r : MeshPeerReconciler) (items : List MeshNetworkPolicy)
    (known : ∀ p ∈ toPolicies items, ∀ ing ∈ p.ingress, ∀ pt ∈ ing.ports, KnownProtocol pt.protocol)
    (peers : List MeshPeer) (peer : MeshPeer) (listed : peer ∈ peers)
    (identified : peer.spec.clusterID ≠ []) (allowedIPs : List Str)
    (programmed : r.Programs peer allowedIPs) (policy : Policy)
    (in_force : policy ∈ toPolicies items)
    (names : ∃ ing ∈ policy.ingress, ing.ports = [] ∧
      ∃ selector ∈ ing.from_, peer.spec.clusterID ∈ selector.clusterIDs) :
    AdmitsPeer (policyRuleset items peers) allowedIPs policy ↔
      ∀ virtual, r.AppearsUnder peer virtual → ∀ source, virtual.contains source = true →
        ∀ destination, policy.Selects destination → ∀ protocol port,
          Admitted (toPolicies items) (clusterCIDRs peers) source destination protocol port := by
  have permits_iff : ∀ packet : Packet (BitVec 32), packet.state = .new →
      policy.Selects packet.destination →
      ((policyRuleset items peers).permits packet = true ↔
        Admitted (toPolicies items) (clusterCIDRs peers) packet.source packet.destination
          packet.protocol packet.destinationPort) := by
    intro packet is_new selected
    rw [policyRuleset, buildFirewall_permits_iff known (by simp [is_new]) (by simp [is_new])]
    exact or_iff_right fun unselected => unselected policy in_force selected
  constructor
  · intro admits virtual appears source contains destination selected protocol port
    let packet : Packet (BitVec 32) := ⟨source, destination, protocol, port, .new⟩
    refine (permits_iff packet rfl selected).mp (admits packet rfl ?_ selected)
    exact (MeshPeerReconciler.inCIDR_allowedIPs_iff programmed source).mpr
      (Or.inr ⟨virtual, appears, contains⟩)
  · intro covered packet is_new possible selected
    rw [permits_iff packet is_new selected]
    rcases (MeshPeerReconciler.inCIDR_allowedIPs_iff programmed packet.source).mp possible with
      ⟨cidr, in_spec, -, inside⟩ | ⟨virtual, appears, contains⟩
    · obtain ⟨ing, in_ingress, open_ports, selector, in_from, named⟩ := names
      have resolved : cidr ∈ clusterCIDRs peers peer.spec.clusterID :=
        mem_clusterCIDRs.mpr ⟨identified, peer, listed, rfl, in_spec⟩
      exact ⟨policy, in_force, selected, ing, in_ingress,
        ⟨selector, in_from, Or.inl ⟨_, named, cidr, resolved, inside⟩⟩, Or.inl open_ports⟩
    · exact covered virtual appears _ contains _ selected _ _

/-- A policy that lets one cluster reach a range. -/
def admitCluster (clusterID destination : Str) : MeshNetworkPolicy where
  name := "admit"
  generation := 1
  spec := ⟨[destination], [⟨[⟨[clusterID], []⟩], []⟩]⟩
  status := ⟨.unset, [], 0⟩

theorem admitCluster_names (clusterID destination : Str) :
    ∃ policy ∈ toPolicies [admitCluster clusterID destination],
      policy.destinations = [destination] ∧ ∃ ing ∈ policy.ingress, ing.ports = [] ∧
        ∃ selector ∈ ing.from_, clusterID ∈ selector.clusterIDs := by
  simp [toPolicies, admitCluster]

/-- A peer without overlap is admitted. -/
theorem cluster_selector_admits_iff_disjoint_peer :
    ∃ policy, AdmitsPeer (policyRuleset [admitCluster "cluster-b" "10.244.5.0/24"]
        [peerOf "cluster-b" ["10.40.0.0/16"]]) ["10.40.0.0/16"] policy ∧
      policy.Selects 0x0AF40507 := by
  obtain ⟨policy, in_force, destinations_eq, names⟩ :=
    admitCluster_names "cluster-b" "10.244.5.0/24"
  have programmed : agentA.Programs (peerOf "cluster-b" ["10.40.0.0/16"])
      ["10.40.0.0/16"] := by
    rw [MeshPeerReconciler.programs_with_pool (by decide)]
    exact ⟨by decide, ⟨[], []⟩, by decide +kernel, by decide +kernel⟩
  refine ⟨policy, (cluster_selector_admits_iff agentA _ (by simp [toPolicies, admitCluster])
    [peerOf "cluster-b" ["10.40.0.0/16"]] _ List.mem_cons_self (by decide) _ programmed
    policy in_force names).mpr ?_, ?_⟩
  · rintro virtual ⟨poolBlock, pool_eq, cidr, in_spec, withheld, -⟩
    have conflict := (mem_conflicts_iff_withheld
      (Option.isSome_iff_exists.mpr (withheld.imp fun _ => And.left))).mpr ⟨in_spec, withheld⟩
    exact absurd conflict (by rw [show (partition _ _).2 = [] from by decide +kernel]; simp)
  · refine Or.inr ⟨"10.244.5.0/24", by simp [destinations_eq], ?_⟩
    rw [← filter4_member_iff]
    decide +kernel

/-- A peer that overlaps the local range appears under a block of the pool and is dropped by the
policy that names it. -/
theorem cluster_selector_drops_remapped_peer :
    agentA.Programs (peerOf "cluster-b" ["10.244.0.0/16"]) ["172.19.0.0/16"] ∧
    ∃ policy ∈ toPolicies [admitCluster "cluster-b" "10.244.5.0/24"],
      (∃ ing ∈ policy.ingress, ing.ports = [] ∧
        ∃ selector ∈ ing.from_, str "cluster-b" ∈ selector.clusterIDs) ∧
      ¬ AdmitsPeer (policyRuleset [admitCluster "cluster-b" "10.244.5.0/24"]
          [peerOf "cluster-b" ["10.244.0.0/16"]]) ["172.19.0.0/16"] policy := by
  refine ⟨agentA_programs_overlap, ?_⟩
  obtain ⟨policy, in_force, destinations_eq, names⟩ :=
    admitCluster_names "cluster-b" "10.244.5.0/24"
  refine ⟨policy, in_force, names, fun admits => ?_⟩
  have permitted := admits ⟨0xAC130105, 0x0AF40507, .tcp, 5432, .new⟩ rfl
    ⟨"172.19.0.0/16", List.mem_cons_self, by rw [← filter4_member_iff]; decide +kernel⟩
    (Or.inr ⟨"10.244.5.0/24", by simp [destinations_eq],
      by rw [← filter4_member_iff]; decide +kernel⟩)
  exact absurd permitted (by decide +kernel)

end DatawerxMesh.Controllers
