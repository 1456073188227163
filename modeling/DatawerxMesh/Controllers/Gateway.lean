import DatawerxMesh.Controllers.Exemption

/-!
# The remote-access gateway

`pkg/controllers/gateway_controller.go` and `pkg/gateway/profile.go`: the gateway masquerades the
traffic of its clients to the mesh, and publishes the profile that tells them what to route to it.
-/

namespace DatawerxMesh.Controllers

open Go Addressing Program DatawerxMesh.Topology NatPlane Netfilter List

/-- The resolver that clients use. -/
structure DNSConfig where
  addr : Str
  searchDomains : List Str

/-- What a client of the gateway needs to know. -/
structure AccessProfile where
  gatewayEndpoints : List Str
  routeCIDRs : List Str
  dns : DNSConfig

/-- `dedupeSortedNonEmpty`, the same as `dedupeSorted` in `pkg/nat`. -/
def dedupeSortedNonEmpty : List Str → List Str := dedupeSorted

/-- The routes and endpoints, each once and sorted. -/
def buildAccessProfile (gatewayEndpoints clusterSetCIDRs meshCIDRs : List Str) (dns : DNSConfig) :
    AccessProfile where
  gatewayEndpoints := dedupeSortedNonEmpty gatewayEndpoints
  routeCIDRs := dedupeSortedNonEmpty (clusterSetCIDRs ++ meshCIDRs)
  dns := { dns with searchDomains := dedupeSortedNonEmpty dns.searchDomains }

/-- The texts that are not empty, without repetitions. -/
def dedupe (texts : List Str) : List Str := (texts.filter (· ≠ [])).eraseDups

/-- The union of two lists. -/
def dedupeUnion (a b : List Str) : List Str := dedupe (a ++ b)

/-- The settings of a gateway. -/
structure GatewayReconciler where
  clientCIDRs : List Str
  gatewayEndpoints : List Str
  clusterSetCIDRs : List Str
  localCIDRs : List Str
  dns : DNSConfig
  noNAT : Bool

/-- The failures of a reconcile. -/
inductive GatewayError where
  | listing (cause : Str)
  | syncing (cause : NatError)
  | publishing (cause : Str)

namespace GatewayReconciler

variable (r : GatewayReconciler)

/-- The ranges that clients can reach. -/
def reachableMesh (peers : List MeshPeer) : List Str :=
  dedupe (r.localCIDRs ++ peers.flatMap fun peer =>
    if peer.spec.publicKey = [] then [] else (partition peer.spec.allCIDRs r.localCIDRs).1)

/-- The arguments of `SyncGatewayMasq` in `Reconcile`. -/
def destCIDRs (peers : List MeshPeer) : List Str :=
  dedupeUnion r.clusterSetCIDRs (r.reachableMesh peers)

/-- The clients whose addresses are rewritten. -/
def masqClients : List Str := if r.noNAT then [] else r.clientCIDRs

/-- The profile of `publishProfile`. -/
def profile (peers : List MeshPeer) : AccessProfile :=
  buildAccessProfile r.gatewayEndpoints r.clusterSetCIDRs (r.reachableMesh peers) r.dns

/-- `GatewayReconciler.Reconcile`, with the answers of the API server.  It leaves the tables of the
manager and the published profile. -/
def reconcile (listed : Except Str (List MeshPeer)) (publishError : Option Str) (m : Manager) :
    Outcome GatewayError (Manager × AccessProfile) :=
  match listed with
  | .error cause => .err (.listing cause)
  | .ok peers =>
    match m.syncGatewayMasq r.masqClients (r.destCIDRs peers) with
    | .panic => .panic
    | .err cause => .err (.syncing cause)
    | .ok after =>
      match publishError with
      | some cause => .err (.publishing cause)
      | none => .ok (after, r.profile peers)

/-- A CIDR that the gateway offers: one of its own, or one of a peer that is routed as it is. -/
def Offers (peers : List MeshPeer) (cidr : Str) : Prop :=
  cidr ∈ r.clusterSetCIDRs ∨ cidr ∈ r.localCIDRs ∨ ∃ peer ∈ peers, peer.spec.publicKey ≠ [] ∧
    cidr ∈ peer.spec.allCIDRs ∧ ∃ remote, parseNet cidr = some remote ∧
      isDangerousCIDR remote = false ∧
      ∀ net ∈ parseCIDRList r.localCIDRs, cidrsOverlap remote net = false

/-- A table masquerades the packets of clients to the published routes, and no others. -/
def Masquerades {w : Nat} (profile : AccessProfile) (family : Family (BitVec w))
    (net : Block w → IPNet) (table : Table) : Prop :=
  ∀ packet decision,
    evalRules family .postrouting noJump (table.rules gatewayMasqChain) packet = some decision ↔
      decision = .masquerade ∧ r.noNAT = false ∧
        (∃ client ∈ r.clientCIDRs, Lies net client packet.source) ∧
        ∃ route ∈ profile.routeCIDRs, Lies net route packet.destination

variable {r} {peers : List MeshPeer} {cidr : Str}

theorem mem_dedupe {texts : List Str} : cidr ∈ dedupe texts ↔ cidr ∈ texts ∧ cidr ≠ [] := by
  simp [dedupe]

theorem mem_reachableMesh : cidr ∈ r.reachableMesh peers ↔ cidr ≠ [] ∧
    (cidr ∈ r.localCIDRs ∨ cidr ∈ MasqExemptReconciler.routedRemoteCIDRs ⟨r.localCIDRs⟩ peers) := by
  rw [reachableMesh, mem_dedupe, mem_append, MasqExemptReconciler.routedRemoteCIDRs,
    mem_eraseDups, and_comm]

theorem mem_routeCIDRs :
    cidr ∈ (r.profile peers).routeCIDRs ↔ cidr ≠ [] ∧ r.Offers peers cidr := by
  rw [profile, buildAccessProfile, dedupeSortedNonEmpty, mem_dedupeSorted, mem_append,
    mem_reachableMesh, MasqExemptReconciler.mem_routedRemoteCIDRs, Offers]
  tauto

theorem mem_destCIDRs : cidr ∈ r.destCIDRs peers ↔ cidr ∈ (r.profile peers).routeCIDRs := by
  rw [destCIDRs, dedupeUnion, mem_dedupe, profile, buildAccessProfile, dedupeSortedNonEmpty,
    mem_dedupeSorted]

/-- What `tableSync_eq_ok` gives for the sync of the gateway. -/
theorem syncGatewayMasq_eq_ok {α : Type} {family : Family α} {clients dests : List Str}
    {table after : Table} (builtins : HasBuiltins table) :
    syncGatewayMasq family table clients dests = .ok after ↔
      (∀ rule ∈ buildGatewayMasqRules clients dests, accepts family rule.args = true) ∧
        after = withRules (prepared table .gateway) (buildGatewayMasqRules clients dests) := by
  let args : SyncArgs := ⟨[], [], [], clients, dests⟩
  have synced : args.tableSync family table .gateway = .ok after ↔ _ := tableSync_eq_ok builtins
  exact synced

theorem masquerades_of_sync {w : Nat} {family : Family (BitVec w)} {net : Block w → IPNet}
    {six : Bool} (reads : Reads family net six) {table after : Table} (builtins : HasBuiltins table)
    (synced : syncGatewayMasq family table (ofFamily six r.masqClients)
      (ofFamily six (r.destCIDRs peers)) = .ok after) :
    r.Masquerades (r.profile peers) family net after := by
  obtain ⟨-, rfl⟩ := (syncGatewayMasq_eq_ok builtins).mp synced
  intro packet decision
  have own : gatewayMasqChain ∈ Sync.chains .gateway := Sync.chain_mem_chains .gateway
  rw [rules_withRules, rules_prepared_own table own, nil_append]
  refine (evalRules_pairs (fun _ => mem_buildGatewayMasqRules) (fun _ _ => rfl) decision).trans
    (and_congr_right fun _ => ?_)
  constructor
  · rintro ⟨client, in_clients, route, in_dests, -, -, -, client_in, route_in⟩
    obtain ⟨in_masq, -⟩ := mem_ofFamily.mp in_clients
    rw [masqClients] at in_masq
    split at in_masq
    · cases in_masq
    · rename_i natted
      exact ⟨by simpa using natted, ⟨client, in_masq, reads.member_iff.mp client_in⟩,
        route, mem_destCIDRs.mp (mem_ofFamily.mp in_dests).1, reads.member_iff.mp route_in⟩
  · rintro ⟨natted, ⟨client, in_clients, client_in⟩, route, in_routes, route_in⟩
    have in_masq : client ∈ r.masqClients := by
      rw [masqClients, natted]
      exact in_clients
    have client_of := MasqExemptReconciler.mem_ofFamily_of_lies reads in_masq client_in
    have route_of := MasqExemptReconciler.mem_ofFamily_of_lies reads (mem_destCIDRs.mpr in_routes)
      route_in
    exact ⟨client, client_of, route, route_of, client_in.ne_nil, route_in.ne_nil,
      (mem_ofFamily.mp client_of).2.trans (mem_ofFamily.mp route_of).2.symm,
      reads.member_iff.mpr client_in, reads.member_iff.mpr route_in⟩

/-- The order and the repetitions of a list are lost when it is sorted without them. -/
theorem dedupeSorted_congr {left right : List Str} (same : ∀ text, text ∈ left ↔ text ∈ right) :
    dedupeSorted left = dedupeSorted right :=
  Sorting.sort_eq_of_mem_iff less_orders (fun _ _ => id) (Accumulation.nodup_eraseDups _)
    (Accumulation.nodup_eraseDups _) (by simp [same])

theorem syncGatewayMasq_congr {m : Manager} {clients left right : List Str}
    (same : ∀ text, text ∈ left ↔ text ∈ right) :
    m.syncGatewayMasq clients left = m.syncGatewayMasq clients right := by
  have same_rules : ∀ six, buildGatewayMasqRules (ofFamily six clients) (ofFamily six left) =
      buildGatewayMasqRules (ofFamily six clients) (ofFamily six right) := by
    intro six
    have same_family : dedupeSorted (ofFamily six left) = dedupeSorted (ofFamily six right) :=
      dedupeSorted_congr fun text => by rw [mem_ofFamily, mem_ofFamily, same]
    rw [buildGatewayMasqRules, pairRules, same_family]
    rfl
  simp only [Manager.syncGatewayMasq, syncGatewayMasq, same_rules]

/-- The order in which the API server lists the peers changes nothing. -/
theorem reconcile_perm {others : List MeshPeer} (reordered : peers.Perm others)
    (publishError : Option Str) (m : Manager) :
    r.reconcile (.ok others) publishError m = r.reconcile (.ok peers) publishError m := by
  have same_mesh : ∀ text, text ∈ r.reachableMesh others ↔ text ∈ r.reachableMesh peers := by
    intro text
    simp only [reachableMesh, mem_dedupe, mem_append, mem_flatMap, reordered.mem_iff]
  have same_routes : (r.profile others).routeCIDRs = (r.profile peers).routeCIDRs :=
    dedupeSorted_congr fun text => by rw [mem_append, mem_append, same_mesh]
  have same_profile : r.profile others = r.profile peers := by
    rw [profile, profile, AccessProfile.mk.injEq]
    exact ⟨rfl, same_routes, rfl⟩
  have same_sync : m.syncGatewayMasq r.masqClients (r.destCIDRs others) =
      m.syncGatewayMasq r.masqClients (r.destCIDRs peers) :=
    syncGatewayMasq_congr fun text => by rw [mem_destCIDRs, mem_destCIDRs, same_routes]
  rw [reconcile, reconcile, same_sync, same_profile]

theorem reconcile_eq_ok {m after : Manager} {published : AccessProfile} :
    r.reconcile (.ok peers) none m = .ok (after, published) ↔
      m.syncGatewayMasq r.masqClients (r.destCIDRs peers) = .ok after ∧
        published = r.profile peers := by
  rw [reconcile]
  cases m.syncGatewayMasq r.masqClients (r.destCIDRs peers) <;> simp [eq_comm]

end GatewayReconciler

/-- After a pass of the gateway its tables masquerade the packets of the clients to the routes in
the profile that it published, and no others.  Those routes are what the gateway offers, and the
pass does the same in whatever order the peers are listed. -/
theorem gateway_masquerades_published (r : GatewayReconciler) (peers : List MeshPeer)
    (m after : Manager) (published : AccessProfile)
    (builtins : HasBuiltins m.ipt ∧ ∀ table, m.ipt6 = some table → HasBuiltins table)
    (done : r.reconcile (.ok peers) none m = .ok (after, published)) :
    r.Masquerades published ipv4 IPNet.four after.ipt ∧
      (∀ table, after.ipt6 = some table → r.Masquerades published ipv6 IPNet.sixteen table) ∧
      (∀ cidr, cidr ∈ published.routeCIDRs ↔ cidr ≠ [] ∧ r.Offers peers cidr) ∧
      ∀ others, peers.Perm others → r.reconcile (.ok others) none m = .ok (after, published) := by
  obtain ⟨synced, rfl⟩ := GatewayReconciler.reconcile_eq_ok.mp done
  obtain ⟨done4, done6⟩ := Manager.dispatch_eq_ok.mp synced
  refine ⟨GatewayReconciler.masquerades_of_sync reads_ipv4 builtins.1 done4, ?_,
    fun cidr => GatewayReconciler.mem_routeCIDRs,
    fun others reordered => (GatewayReconciler.reconcile_perm reordered none m).trans done⟩
  intro table present
  rw [present] at done6
  obtain ⟨ipt, _ | table6⟩ := m
  · cases done6
  · cases done6 with
    | some synced6 =>
      exact GatewayReconciler.masquerades_of_sync reads_ipv6 (builtins.2 table6 rfl) synced6

/-- A gateway to the ranges of both families, with clients of IPv4. -/
def dualStackGateway : GatewayReconciler where
  clientCIDRs := ["100.64.0.0/10"]
  gatewayEndpoints := ["gw"]
  clusterSetCIDRs := ["10.120.0.0/16"]
  localCIDRs := dualStack.localCIDRs
  dns := ⟨[], []⟩
  noNAT := false

/-- A manager without `ip6tables`. -/
def manager4 : Manager := ⟨emptyManager.ipt, none⟩

theorem gateway_masquerades_published_dualStack : ∃ after published,
    dualStackGateway.reconcile (.ok [dualStackPeer]) none manager4 = .ok (after, published) ∧
      dualStackGateway.Masquerades published ipv4 IPNet.four after.ipt := by
  have builtins : HasBuiltins manager4.ipt := emptyManager_fresh.1.builtins
  have done4 : syncGatewayMasq ipv4 manager4.ipt (ofFamily false dualStackGateway.masqClients)
      (ofFamily false (dualStackGateway.destCIDRs [dualStackPeer])) = .ok _ :=
    (GatewayReconciler.syncGatewayMasq_eq_ok builtins).mpr ⟨by decide +kernel, rfl⟩
  have done : manager4.syncGatewayMasq dualStackGateway.masqClients
      (dualStackGateway.destCIDRs [dualStackPeer]) = .ok ⟨_, none⟩ :=
    Manager.dispatch_eq_ok.mpr ⟨done4, .none⟩
  have passed := GatewayReconciler.reconcile_eq_ok.mpr ⟨done, rfl⟩
  exact ⟨_, _, passed, (gateway_masquerades_published dualStackGateway [dualStackPeer] manager4 _ _
    ⟨builtins, by simp [manager4]⟩ passed).1⟩

end DatawerxMesh.Controllers
