import DatawerxMesh.Controllers.MasqExempt

/-!
# What the masquerade exemption accepts

The installed exemption chain of each table accepts exactly the packets from a local CIDR to a
routed one of that family.  How a CIDR text names a block of a family is collected in `Reads`.
-/

namespace DatawerxMesh.Controllers

open Go Addressing Program DatawerxMesh.Topology NatPlane Netfilter

/-- An IPv4 network, or an IPv6 network that is not mapped. -/
def Plain : IPNet → Prop
  | .four _ => True
  | .sixteen block => unmap block.base = none

instance : DecidablePred Plain
  | .four _ => inferInstanceAs (Decidable True)
  | .sixteen block => inferInstanceAs (Decidable (unmap block.base = none))

/-- A text that names a plain network. -/
def PlainCIDR (cidr : Str) : Prop := ∃ net, parseNet cidr = some net ∧ Plain net

instance : DecidablePred PlainCIDR := fun cidr =>
  decidable_of_iff (∃ net ∈ parseNet cidr, Plain net) Iff.rfl

section Family

variable {w : Nat}

/-- The address lies in the CIDR, where `net` makes the networks of the address's family. -/
def Lies (net : Block w → IPNet) (cidr : Str) (address : BitVec w) : Prop :=
  ∃ block, parseNet cidr = some (net block) ∧ block.contains address = true

theorem Lies.ne_nil {net : Block w → IPNet} {cidr : Str} {address : BitVec w}
    (lies : Lies net cidr address) : cidr ≠ [] := by
  obtain ⟨block, parsed, -⟩ := lies
  exact ne_nil_of_parseNet parsed

/-- A table reads the networks of its family, whose texts it is given. -/
structure Reads (family : Family (BitVec w)) (net : Block w → IPNet) (six : Bool) : Prop where
  injective : ∀ {left right}, net left = net right → left = right
  member_iff : ∀ {cidr address}, family.member cidr address = true ↔ Lies net cidr address
  reads_iff : ∀ {cidr}, family.reads cidr = true ↔ ∃ block, parseNet cidr = some (net block)
  isIPv6_iff : ∀ {cidr parsed}, parseNet cidr = some parsed →
    (isIPv6 cidr = six ↔ ∃ block, parsed = net block)
  overlap_iff : ∀ {block other}, Plain (net block) → Plain other →
    (cidrsOverlap (net block) other = true ↔
      ∃ own, other = net own ∧ ∃ address, block.contains address = true ∧
        own.contains address = true)

end Family

theorem block4_of_high {block : Block 128} (high : unmap block.base = none) :
    (IPNet.sixteen block).block4 = none := by
  simp [IPNet.block4, IPNet.number, high]

theorem isIPv6_iff_sixteen {cidr : Str} {parsed : IPNet} (parsed_eq : parseNet cidr = some parsed) :
    isIPv6 cidr = true ↔ ∃ block, parsed = .sixteen block :=
  colon_of_parseNet parsed_eq

theorem reads_ipv4 : Reads ipv4 IPNet.four false where
  injective := IPNet.four.inj
  member_iff := ipv4_member_iff
  reads_iff := by
    intro cidr
    simp only [ipv4]
    rcases parseNet cidr with _ | block | block <;> simp
  isIPv6_iff := by
    intro cidr parsed parsed_eq
    rw [← Bool.not_eq_true, isIPv6_iff_sixteen parsed_eq]
    cases parsed <;> simp
  overlap_iff := by
    intro block other _ plain
    cases other with
    | four own => simp [cidrsOverlap_of_block4 (IPNet.block4_four block) (IPNet.block4_four own),
        Block.overlaps_iff]
    | sixteen own =>
      refine iff_of_false (fun overlap => ?_) (by simp)
      have same := block4_of_cidrsOverlap overlap
      rw [block4_of_high plain] at same
      cases same

theorem reads_ipv6 : Reads ipv6 IPNet.sixteen true where
  injective := IPNet.sixteen.inj
  member_iff := ipv6_member_iff
  reads_iff := by
    intro cidr
    simp only [ipv6]
    rcases parseNet cidr with _ | block | block <;> simp
  isIPv6_iff := isIPv6_iff_sixteen
  overlap_iff := by
    intro block other block_plain plain
    cases other with
    | four own =>
      refine iff_of_false (fun overlap => ?_) (by simp)
      have same := block4_of_cidrsOverlap overlap
      rw [block4_of_high block_plain] at same
      cases same
    | sixteen own => simp [cidrsOverlap_of_high block_plain plain, Block.overlaps_iff]

namespace MasqExemptReconciler

variable {w : Nat} {family : Family (BitVec w)} {net : Block w → IPNet} {six : Bool}

/-- The address lies in a CIDR of a peer with a key that is not dangerous and shares no address with
a local CIDR. -/
def Routes (r : MasqExemptReconciler) (peers : List MeshPeer) (net : Block w → IPNet)
    (address : BitVec w) : Prop :=
  ∃ peer ∈ peers, peer.spec.publicKey ≠ [] ∧ ∃ cidr ∈ peer.spec.allCIDRs, Lies net cidr address ∧
    (∀ remote, parseNet cidr = some remote → isDangerousCIDR remote = false) ∧
    ∀ own ∈ r.localCIDRs, ∀ shared, Lies net cidr shared → ¬ Lies net own shared

/-- Specs name plain networks; those of peers may also hold texts that are no CIDRs. -/
structure PlainSpecs (r : MasqExemptReconciler) (peers : List MeshPeer) : Prop where
  locals : ∀ cidr ∈ r.localCIDRs, PlainCIDR cidr
  remotes : ∀ peer ∈ peers, ∀ cidr ∈ peer.spec.allCIDRs, parseNet cidr = none ∨ PlainCIDR cidr

/-- What the exemption chain of a table does. -/
structure Exempts (r : MasqExemptReconciler) (peers : List MeshPeer) (family : Family (BitVec w))
    (net : Block w → IPNet) (table : Table) : Prop where
  accepts_iff : ∀ packet decision,
    evalRules family .postrouting noJump (table.rules noMasqChain) packet = some decision ↔
      decision = .accept packet.source ∧
        (∃ cidr ∈ r.localCIDRs, Lies net cidr packet.source) ∧
        r.Routes peers net packet.destination
  spares_locals : ∀ packet, (∃ cidr ∈ r.localCIDRs, Lies net cidr packet.destination) →
    evalRules family .postrouting noJump (table.rules noMasqChain) packet = none
  one_family : ∀ args ∈ table.rules noMasqChain, ∃ source destination,
    args = [str "-s", source, str "-d", destination, str "-j", str "ACCEPT"] ∧
      (∃ block, parseNet source = some (net block)) ∧
      ∃ block, parseNet destination = some (net block)

variable {r : MasqExemptReconciler} {peers : List MeshPeer}

theorem PlainSpecs.plain_local (plain : r.PlainSpecs peers) {cidr : Str}
    (mem : cidr ∈ r.localCIDRs) {parsed : IPNet} (parsed_eq : parseNet cidr = some parsed) :
    Plain parsed := by
  obtain ⟨net, net_eq, net_plain⟩ := plain.locals cidr mem
  exact Option.some.inj (net_eq.symm.trans parsed_eq) ▸ net_plain

theorem PlainSpecs.plain_remote (plain : r.PlainSpecs peers) {peer : MeshPeer}
    (in_peers : peer ∈ peers) {cidr : Str} (mem : cidr ∈ peer.spec.allCIDRs) {parsed : IPNet}
    (parsed_eq : parseNet cidr = some parsed) : Plain parsed := by
  rcases plain.remotes peer in_peers cidr mem with unread | ⟨net, net_eq, net_plain⟩
  · cases unread.symm.trans parsed_eq
  · exact Option.some.inj (net_eq.symm.trans parsed_eq) ▸ net_plain

section

variable (reads : Reads family net six)

include reads

theorem lies_routed_iff (plain : r.PlainSpecs peers) {address : BitVec w} :
    (∃ cidr ∈ r.routedRemoteCIDRs peers, Lies net cidr address) ↔ r.Routes peers net address := by
  constructor
  · rintro ⟨cidr, mem, block, parsed, contains⟩
    obtain ⟨peer, in_peers, keyed, in_spec, remote, remote_eq, safe, disjoint⟩ :=
      mem_routedRemoteCIDRs.mp mem
    obtain rfl := Option.some.inj (parsed.symm.trans remote_eq)
    refine ⟨peer, in_peers, keyed, cidr, in_spec, ⟨block, parsed, contains⟩, ?_, ?_⟩
    · intro other other_eq
      exact Option.some.inj (parsed.symm.trans other_eq) ▸ safe
    · rintro own in_locals shared ⟨block', parsed', in_remote⟩ ⟨ownBlock, own_parsed, in_own⟩
      obtain rfl := reads.injective (Option.some.inj (parsed.symm.trans parsed'))
      have overlap := (reads.overlap_iff (plain.plain_remote in_peers in_spec parsed)
        (plain.plain_local in_locals own_parsed)).mpr ⟨ownBlock, rfl, shared, in_remote, in_own⟩
      rw [disjoint _ (mem_parseCIDRList.mpr ⟨own, in_locals, own_parsed⟩)] at overlap
      cases overlap
  · rintro ⟨peer, in_peers, keyed, cidr, in_spec, ⟨block, parsed, contains⟩, safe, apart⟩
    refine ⟨cidr, mem_routedRemoteCIDRs.mpr ⟨peer, in_peers, keyed, in_spec, net block, parsed,
      safe _ parsed, fun localNet in_locals => ?_⟩, block, parsed, contains⟩
    obtain ⟨own, own_mem, own_parsed⟩ := mem_parseCIDRList.mp in_locals
    rw [← Bool.not_eq_true, reads.overlap_iff (plain.plain_remote in_peers in_spec parsed)
      (plain.plain_local own_mem own_parsed)]
    rintro ⟨ownBlock, rfl, shared, in_remote, in_own⟩
    exact apart own own_mem shared ⟨block, parsed, in_remote⟩ ⟨ownBlock, own_parsed, in_own⟩

theorem net_of_local (plain : r.PlainSpecs peers) {cidr : Str}
    (mem : cidr ∈ ofFamily six r.localCIDRs) : ∃ block, parseNet cidr = some (net block) := by
  obtain ⟨in_locals, same⟩ := mem_ofFamily.mp mem
  obtain ⟨parsed, parsed_eq, -⟩ := plain.locals cidr in_locals
  obtain ⟨block, rfl⟩ := (reads.isIPv6_iff parsed_eq).mp same
  exact ⟨block, parsed_eq⟩

theorem net_of_routed {cidr : Str} (mem : cidr ∈ ofFamily six (r.routedRemoteCIDRs peers)) :
    ∃ block, parseNet cidr = some (net block) := by
  obtain ⟨routed, same⟩ := mem_ofFamily.mp mem
  obtain ⟨-, -, -, -, parsed, parsed_eq, -⟩ := mem_routedRemoteCIDRs.mp routed
  obtain ⟨block, rfl⟩ := (reads.isIPv6_iff parsed_eq).mp same
  exact ⟨block, parsed_eq⟩

theorem mem_ofFamily_of_lies {cidrs : List Str} {cidr : Str}
    (mem : cidr ∈ cidrs) {address : BitVec w} (lies : Lies net cidr address) :
    cidr ∈ ofFamily six cidrs := by
  obtain ⟨block, parsed, -⟩ := lies
  exact mem_ofFamily.mpr ⟨mem, (reads.isIPv6_iff parsed).mpr ⟨block, rfl⟩⟩

end

/-- What a table of one family is given. -/
def exemptArgs (r : MasqExemptReconciler) (peers : List MeshPeer) (six : Bool) : SyncArgs where
  entries := []
  locals := ofFamily six r.localCIDRs
  remotes := ofFamily six (r.routedRemoteCIDRs peers)
  clientCIDRs := []
  destCIDRs := []

theorem decision_exempt_iff (reads : Reads family net six) (plain : r.PlainSpecs peers)
    {packet : Packet (BitVec w)} {decision : Decision (BitVec w)} :
    (r.exemptArgs peers six).decision family packet .noMasq = some decision ↔
      decision = .accept packet.source ∧
        (∃ cidr ∈ r.localCIDRs, Lies net cidr packet.source) ∧
        r.Routes peers net packet.destination := by
  refine decision_noMasq.trans (and_congr_right fun _ => ?_)
  rw [← lies_routed_iff reads plain]
  constructor
  · rintro ⟨source, in_locals, destination, in_remotes, -, -, -, source_in, destination_in⟩
    exact ⟨⟨source, (mem_ofFamily.mp in_locals).1, reads.member_iff.mp source_in⟩,
      destination, (mem_ofFamily.mp in_remotes).1, reads.member_iff.mp destination_in⟩
  · rintro ⟨⟨source, in_locals, source_in⟩, destination, in_remotes, destination_in⟩
    have source_of := mem_ofFamily_of_lies reads in_locals source_in
    have destination_of := mem_ofFamily_of_lies reads in_remotes destination_in
    exact ⟨source, source_of, destination, destination_of, source_in.ne_nil, destination_in.ne_nil,
      (mem_ofFamily.mp source_of).2.trans (mem_ofFamily.mp destination_of).2.symm,
      reads.member_iff.mpr source_in, reads.member_iff.mpr destination_in⟩

theorem syncNoMasq_exempts (reads : Reads family net six) (plain : r.PlainSpecs peers)
    {table : Table} (builtins : HasBuiltins table) :
    ∃ after, syncNoMasq family table (ofFamily six r.localCIDRs)
        (ofFamily six (r.routedRemoteCIDRs peers)) = .ok after ∧
      r.Exempts peers family net after := by
  have nets : ∀ rule ∈ (r.exemptArgs peers six).rules .noMasq, ∃ source destination,
      rule.args = [str "-s", source, str "-d", destination, str "-j", str "ACCEPT"] ∧
        (∃ block, parseNet source = some (net block)) ∧
        ∃ block, parseNet destination = some (net block) := by
    intro rule mem
    obtain ⟨source, in_locals, destination, in_remotes, -, -, -, rfl⟩ := mem_pairRules.mp mem
    exact ⟨source, destination, rfl, net_of_local reads plain in_locals,
      net_of_routed reads in_remotes⟩
  have accepted : ∀ rule ∈ (r.exemptArgs peers six).rules .noMasq,
      accepts family rule.args = true := by
    intro rule mem
    obtain ⟨source, destination, args_eq, source_net, destination_net⟩ := nets rule mem
    rw [args_eq]
    simp [accepts, options, readable, reads.reads_iff.mpr source_net,
      reads.reads_iff.mpr destination_net]
  have installed : (r.exemptArgs peers six).tableSync family table .noMasq =
      .ok (withRules (prepared table .noMasq) ((r.exemptArgs peers six).rules .noMasq)) :=
    (tableSync_eq_ok builtins).mpr ⟨accepted, rfl⟩
  have filled : (withRules (prepared table .noMasq)
      ((r.exemptArgs peers six).rules .noMasq)).rules noMasqChain =
        (r.exemptArgs peers six).content .noMasq :=
    rules_tableSync_own table (Sync.chain_mem_chains .noMasq)
  refine ⟨_, installed, ?_, ?_, ?_⟩
  all_goals rw [filled]
  · exact fun packet decision => decision_exempt_iff reads plain
  · rintro packet ⟨own, in_locals, destination_in⟩
    rw [Option.eq_none_iff_forall_ne_some]
    intro decision decided
    obtain ⟨-, -, peer, -, -, cidr, -, routed, -, apart⟩ :=
      (decision_exempt_iff reads plain).mp decided
    exact apart own in_locals packet.destination routed destination_in
  · intro args mem
    obtain ⟨rule, rule_mem, rfl⟩ := List.mem_map.mp mem
    exact nets rule (List.mem_of_mem_filter rule_mem)

end MasqExemptReconciler

/-- `SyncMeshNoMasq` with the planned CIDRs succeeds on tables with their built-in chains.  In each
table the exemption then accepts exactly the packets from local to routed addresses of its family,
none of which goes to a local address, and all its rules are of that family. -/
theorem exemption_is_exact (r : MasqExemptReconciler) (peers : List MeshPeer) (m : Manager)
    (builtins : HasBuiltins m.ipt ∧ ∀ table, m.ipt6 = some table → HasBuiltins table)
    (plain : r.PlainSpecs peers) :
    ∃ after, m.syncMeshNoMasq r.localCIDRs (r.routedRemoteCIDRs peers) = .ok after ∧
      r.Exempts peers ipv4 IPNet.four after.ipt ∧
      (after.ipt6.isSome = m.ipt6.isSome) ∧
      ∀ table, after.ipt6 = some table → r.Exempts peers ipv6 IPNet.sixteen table := by
  obtain ⟨after4, done4, exempts4⟩ :=
    MasqExemptReconciler.syncNoMasq_exempts reads_ipv4 plain builtins.1
  cases ipt6 : m.ipt6 with
  | none =>
    have done : m.syncMeshNoMasq r.localCIDRs (r.routedRemoteCIDRs peers) =
        .ok ⟨after4, none⟩ := Manager.dispatch_eq_ok.mpr ⟨done4, by rw [ipt6]; exact .none⟩
    refine ⟨⟨after4, none⟩, done, exempts4, rfl, fun table absent => ?_⟩
    cases absent
  | some table6 =>
    obtain ⟨after6, done6, exempts6⟩ :=
      MasqExemptReconciler.syncNoMasq_exempts reads_ipv6 plain (builtins.2 table6 ipt6)
    have done : m.syncMeshNoMasq r.localCIDRs (r.routedRemoteCIDRs peers) =
        .ok ⟨after4, some after6⟩ :=
      Manager.dispatch_eq_ok.mpr ⟨done4, by rw [ipt6]; exact .some done6⟩
    refine ⟨⟨after4, some after6⟩, done, exempts4, rfl, fun table present => ?_⟩
    exact Option.some.inj present ▸ exempts6

/-- Local ranges of both families. -/
def dualStack : MasqExemptReconciler := ⟨[str "10.244.0.0/16", str "fd00:a::/48"]⟩

/-- A peer with ranges of both families, one that overlaps and one that is no CIDR. -/
def dualStackPeer : MeshPeer :=
  peerOf (str "cluster-b") [str "10.245.0.0/16", str "10.244.128.0/17", str "fd00:b::/48", str "x"]

theorem plainSpecs_dualStack : dualStack.PlainSpecs [dualStackPeer] where
  locals := by decide +kernel
  remotes := by decide +kernel

theorem exemption_is_exact_dualStack :
    ∃ after, emptyManager.syncMeshNoMasq dualStack.localCIDRs
        (dualStack.routedRemoteCIDRs [dualStackPeer]) = .ok after ∧
      dualStack.Exempts [dualStackPeer] ipv4 IPNet.four after.ipt ∧
      ∃ table, after.ipt6 = some table ∧
        dualStack.Exempts [dualStackPeer] ipv6 IPNet.sixteen table := by
  have builtins : HasBuiltins emptyManager.ipt ∧
      ∀ table, emptyManager.ipt6 = some table → HasBuiltins table :=
    ⟨emptyManager_fresh.1.builtins, fun table present =>
      (emptyManager_fresh.2 table present).builtins⟩
  obtain ⟨after, done, exempts4, both, exempts6⟩ :=
    exemption_is_exact dualStack [dualStackPeer] emptyManager builtins plainSpecs_dualStack
  obtain ⟨table, present⟩ := Option.isSome_iff_exists.mp both
  exact ⟨after, done, exempts4, table, present, exempts6 table present⟩

end DatawerxMesh.Controllers
