import DatawerxMesh.Dns.Aggregate
import DatawerxMesh.Go.Hash

/-!
# Mirrored endpoint slices

`pkg/dns/mirror.go`: the addresses of each contributing cluster, split by family and packed into
endpoint slices of bounded size.
-/

namespace DatawerxMesh.Dns

open Go Sorting List

/-- The places where `PlanEndpointSlices` sorts, and the order in which slices are listed. -/
inductive MirrorSite where
  | endpoints
  | slices
  | existing

/-- The family of a slice. -/
inductive AddressType where
  | ipv4
  | ipv6
  deriving DecidableEq

/-- A port of a slice. -/
structure EndpointPort where
  name : Option Str
  protocol : Str
  port : Int
  appProtocol : Option Str
  deriving DecidableEq

/-- `discoveryv1.EndpointSlice` as it is written for an import. -/
structure MirroredSlice extends EndpointSlice where
  name : Str
  namespace_ : Str
  labels : List (Str × Str)
  addressType : AddressType
  ports : List EndpointPort
  deriving DecidableEq

/-- The manager of mirrored slices. -/
def mirrorManagedBy : Str := "datawerx-mesh.networking.datawerx.io"

/-- The size of a full slice. -/
def maxEndpointsPerSlice : Nat := 100

/-- The labels of a slice. -/
def mirrorLabels (importName cluster : Str) : List (Str × Str) :=
  [("multicluster.kubernetes.io/service-name", importName),
    ("multicluster.kubernetes.io/source-cluster", cluster),
    ("endpointslice.kubernetes.io/managed-by", mirrorManagedBy)]

/-- The text of an address family in a name. -/
def AddressType.short : AddressType → Str
  | .ipv4 => "ipv4"
  | .ipv6 => "ipv6"

/-- The name of a slice before it is shortened. -/
def fullSliceName (importName cluster : Str) (fam : AddressType) (chunk : Nat) : Str :=
  importName ++ "-" ++ cluster ++ "-" ++ fam.short ++ "-" ++ itoa chunk

/-- Long names are cut and hashed. -/
def mirrorSliceName (importName cluster : Str) (fam : AddressType) (chunk : Nat) : Str :=
  let full := fullSliceName importName cluster fam chunk
  let maxName := 253
  if full.length ≤ maxName then full
  else
    let tail := "-" ++ hexEncode ((sha256 full).take 8)
    full.take (maxName - tail.length) ++ tail

/-- The ports with their defaults. -/
def mirrorPorts (in_ : List ServicePort) : List EndpointPort :=
  in_.map fun p => {
    name := if p.name = [] then none else some p.name
    protocol := if p.protocol = [] then "TCP" else p.protocol
    port := p.port
    appProtocol := p.appProtocol }

/-- The family of an address text, if it is one. -/
def familyOf (ip : Str) : Option AddressType :=
  (parseIP ip).map fun parsed => if parsed.to4.isSome then .ipv4 else .ipv6

/-- The addresses of a family, each once and sorted. -/
def addressesOfFamily (in_ : List Str) (fam : AddressType) : List Str :=
  sortStrings (in_.filter fun ip => familyOf ip = some fam).dedup

/-- One slice of a cluster. -/
def mirrorSlice (importName namespace_ cluster : Str) (fam : AddressType) (addrs : List Str)
    (ports : List EndpointPort) (chunk : Nat) : MirroredSlice where
  name := mirrorSliceName importName cluster fam chunk
  namespace_ := namespace_
  labels := mirrorLabels importName cluster
  addressType := fam
  endpoints := addrs.map fun a => ⟨[a], some true, none⟩
  ports := ports

/-- The slices of a number of addresses with their positions. -/
def chunks (addrs : List Str) : List (Nat × List Str) :=
  (List.range ((addrs.length + maxEndpointsPerSlice - 1) / maxEndpointsPerSlice)).map fun chunk =>
    (chunk, (addrs.drop (chunk * maxEndpointsPerSlice)).take maxEndpointsPerSlice)

/-- All slices of a cluster. -/
def clusterSlices (importName namespace_ : Str) (ep : ExportedEndpoint) : List MirroredSlice :=
  [AddressType.ipv4, AddressType.ipv6].flatMap fun fam =>
    (chunks (addressesOfFamily ep.ips fam)).map fun chunk =>
      mirrorSlice importName namespace_ ep.cluster fam chunk.2 (mirrorPorts ep.ports) chunk.1

/-- The slices of a service. -/
def planEndpointSlices (go : Runtime MirrorSite) (importName namespace_ : Str)
    (endpoints : List ExportedEndpoint) : List MirroredSlice :=
  let sorted := go.sortSlice .endpoints lessCluster endpoints
  go.sortSlice .slices (fun a b => less a.name b.name)
    (sorted.flatMap (clusterSlices importName namespace_))

/-- The addresses in a slice. -/
def MirroredSlice.addresses (slice : MirroredSlice) : List Str :=
  slice.endpoints.flatMap Endpoint.addresses

theorem addresses_mirrorSlice (importName namespace_ cluster : Str) (fam : AddressType)
    (addrs : List Str) (ports : List EndpointPort) (chunk : Nat) :
    (mirrorSlice importName namespace_ cluster fam addrs ports chunk).addresses = addrs := by
  simp [MirroredSlice.addresses, mirrorSlice, flatMap_map]

theorem mem_chunks {addrs part : List Str} {chunk : Nat} :
    (chunk, part) ∈ chunks addrs ↔ chunk * maxEndpointsPerSlice < addrs.length ∧
      part = (addrs.drop (chunk * maxEndpointsPerSlice)).take maxEndpointsPerSlice := by
  have left_iff : chunk < (addrs.length + maxEndpointsPerSlice - 1) / maxEndpointsPerSlice ↔
      chunk * maxEndpointsPerSlice < addrs.length := by
    rw [maxEndpointsPerSlice]
    omega
  rw [chunks, mem_map]
  constructor
  · rintro ⟨position, bound, same⟩
    obtain ⟨rfl, rfl⟩ := Prod.mk.inj same
    exact ⟨left_iff.mp (mem_range.mp bound), rfl⟩
  · rintro ⟨left, rfl⟩
    exact ⟨chunk, mem_range.mpr (left_iff.mpr left), rfl⟩

theorem exists_chunk_iff {addrs : List Str} {ip : Str} :
    (∃ chunk ∈ chunks addrs, ip ∈ chunk.2) ↔ ip ∈ addrs := by
  constructor
  · rintro ⟨⟨chunk, part⟩, mem, inside⟩
    obtain ⟨-, rfl⟩ := mem_chunks.mp mem
    exact mem_of_mem_drop (mem_of_mem_take inside)
  · intro mem
    obtain ⟨i, bound, rfl⟩ := mem_iff_getElem.mp mem
    have split : i / maxEndpointsPerSlice * maxEndpointsPerSlice + i % maxEndpointsPerSlice = i :=
      Nat.div_add_mod' i maxEndpointsPerSlice
    have small : i % maxEndpointsPerSlice < maxEndpointsPerSlice := Nat.mod_lt _ (by decide)
    have left : i / maxEndpointsPerSlice * maxEndpointsPerSlice < addrs.length := by omega
    refine ⟨(_, _), mem_chunks.mpr ⟨left, rfl⟩, ?_⟩
    rw [mem_take_iff_getElem]
    refine ⟨i % maxEndpointsPerSlice, ?_, ?_⟩
    · rw [length_drop]
      omega
    · rw [getElem_drop]
      congr 1

theorem mem_addressesOfFamily {in_ : List Str} {fam : AddressType} {ip : Str} :
    ip ∈ addressesOfFamily in_ fam ↔ ip ∈ in_ ∧ familyOf ip = some fam := by
  simp [addressesOfFamily, sortStrings]

theorem isSome_familyOf (ip : Str) : (familyOf ip).isSome = (parseIP ip).isSome := by
  rw [familyOf, Option.isSome_map]

variable {importName namespace_ : Str}

theorem mem_clusterSlices {ep : ExportedEndpoint}
    {slice : MirroredSlice} :
    slice ∈ clusterSlices importName namespace_ ep ↔
      ∃ fam, ∃ chunk ∈ chunks (addressesOfFamily ep.ips fam),
        slice = mirrorSlice importName namespace_ ep.cluster fam chunk.2 (mirrorPorts ep.ports)
          chunk.1 := by
  rw [clusterSlices, mem_flatMap]
  constructor
  · rintro ⟨fam, -, mem⟩
    obtain ⟨chunk, in_chunks, rfl⟩ := mem_map.mp mem
    exact ⟨fam, chunk, in_chunks, rfl⟩
  · rintro ⟨fam, chunk, in_chunks, rfl⟩
    refine ⟨fam, ?_, mem_map_of_mem in_chunks⟩
    cases fam <;> simp

theorem name_orders : Orders (fun a b : MirroredSlice => less a.name b.name) MirroredSlice.name :=
  less_orders.onField

theorem mem_planEndpointSlices {go : Runtime MirrorSite}
    {endpoints : List ExportedEndpoint} {slice : MirroredSlice} :
    slice ∈ planEndpointSlices go importName namespace_ endpoints ↔
      ∃ ep ∈ endpoints, slice ∈ clusterSlices importName namespace_ ep := by
  rw [planEndpointSlices, (go.sortSlice_arranges .slices name_orders _).perm.mem_iff, mem_flatMap]
  simp only [(go.sortSlice_arranges .endpoints lessCluster_orders endpoints).perm.mem_iff]

theorem exists_slice_iff {importName namespace_ ip : Str} {ep : ExportedEndpoint} :
    (∃ slice ∈ clusterSlices importName namespace_ ep, ip ∈ slice.addresses) ↔
      ip ∈ ep.ips ∧ (parseIP ip).isSome = true := by
  constructor
  · rintro ⟨slice, mem, inside⟩
    obtain ⟨fam, chunk, in_chunks, rfl⟩ := mem_clusterSlices.mp mem
    rw [addresses_mirrorSlice] at inside
    obtain ⟨listed, family_eq⟩ := mem_addressesOfFamily.mp (exists_chunk_iff.mp ⟨chunk, in_chunks,
      inside⟩)
    exact ⟨listed, by rw [← isSome_familyOf, family_eq, Option.isSome_some]⟩
  · rintro ⟨listed, valid⟩
    rw [← isSome_familyOf, Option.isSome_iff_exists] at valid
    obtain ⟨fam, family_eq⟩ := valid
    obtain ⟨chunk, in_chunks, inside⟩ :=
      exists_chunk_iff.mpr (mem_addressesOfFamily.mpr ⟨listed, family_eq⟩)
    refine ⟨_, mem_clusterSlices.mpr ⟨fam, chunk, in_chunks, rfl⟩, ?_⟩
    rwa [addresses_mirrorSlice]

theorem mem_addresses_planEndpointSlices {go : Runtime MirrorSite}
    {endpoints : List ExportedEndpoint} {ip : Str} :
    (∃ slice ∈ planEndpointSlices go importName namespace_ endpoints, ip ∈ slice.addresses) ↔
      (∃ ep ∈ endpoints, ip ∈ ep.ips) ∧ (parseIP ip).isSome = true := by
  constructor
  · rintro ⟨slice, mem, inside⟩
    obtain ⟨ep, in_endpoints, in_slices⟩ := mem_planEndpointSlices.mp mem
    obtain ⟨listed, valid⟩ := exists_slice_iff.mp ⟨slice, in_slices, inside⟩
    exact ⟨⟨ep, in_endpoints, listed⟩, valid⟩
  · rintro ⟨⟨ep, mem, listed⟩, valid⟩
    obtain ⟨slice, in_slices, inside⟩ := exists_slice_iff.mpr ⟨listed, valid⟩
    exact ⟨slice, mem_planEndpointSlices.mpr ⟨ep, mem, in_slices⟩, inside⟩

end DatawerxMesh.Dns
