import DatawerxMesh.Api.Resources
import DatawerxMesh.Go.Casing
import DatawerxMesh.Go.NetText

/-!
# The zone server

`pkg/dns/resolve.go` and `pkg/dnsserver`: queries for imported services are answered with their
virtual addresses or, where headless, with the exported ones.
-/

namespace DatawerxMesh.Dnsserver

open Go List

/-- The domain of the cluster set. -/
def clusterSetDomain : Str := "clusterset.local"

/-- The zone that is served. -/
def clusterSetZoneSuffix : Str := "svc." ++ clusterSetDomain

section Names

variable (unicode : CaseTable)

/-- `normalizeName`, with the case tables of the `unicode` package. -/
def normalizeName (qname : Str) : Str := trimSuffix (unicode.toLower qname) "."

/-- `InClusterSetZone`. -/
def inClusterSetZone (qname : Str) : Bool :=
  let n := normalizeName unicode qname
  n == clusterSetZoneSuffix || hasSuffix n ("." ++ clusterSetZoneSuffix)

/-- `ParseClusterSetName`: the name and the namespace of the queried service. -/
def parseClusterSetName (qname : Str) : Option (Str × Str) :=
  let n := normalizeName unicode qname
  if hasSuffix n ("." ++ clusterSetZoneSuffix) = false then none
  else
    let front := trimSuffix n ("." ++ clusterSetZoneSuffix)
    if front = [] then none
    else
      match front.splitOn 46 with
      | [name, namespace_] =>
        if name = [] ∨ namespace_ = [] then none else some (name, namespace_)
      | _ => none

end Names

/-- What a lookup finds. -/
structure ResolvedService where
  type : ServiceImportType
  ips : List Str

/-- `Get` on imports, where nothing stands for not found, and `List` on the exports of a namespace.
-/
structure Reader (ε : Type) where
  get (namespace_ name : Str) : Except ε (Option ServiceImport)
  list (namespace_ : Str) : Except ε (List EndpointExport)

section Lookup

variable {ε : Type}

/-- The addresses that all clusters export. -/
def Reader.headlessIPs (reader : Reader ε) (namespace_ name : Str) : Except ε (List Str) := do
  let items ← reader.list namespace_
  let own := items.filter fun item =>
    item.spec.serviceNamespace == namespace_ && item.spec.serviceName == name
  return sortStrings ((own.flatMap fun item => item.spec.ips).filter (· ≠ [])).dedup

/-- The import, with the addresses to answer. -/
def Reader.lookupClusterSet (reader : Reader ε) (namespace_ name : Str) :
    Except ε (Option ResolvedService) := do
  match ← reader.get namespace_ name with
  | none => return none
  | some si =>
    match si.spec.type with
    | .headless =>
      let ips ← reader.headlessIPs namespace_ name
      return some ⟨.headless, ips⟩
    | .clusterSetIP => return some ⟨.clusterSetIP, si.spec.ips⟩

end Lookup

/-- A reader whose cache holds the given objects. -/
def Reader.of (ε : Type) (imports : List ServiceImport) (exports : List EndpointExport) :
    Reader ε where
  get namespace_ name :=
    .ok (imports.find? fun si => si.namespace_ == namespace_ && si.name == name)
  list namespace_ := .ok (exports.filter fun e => e.namespace_ == namespace_)

/-- The response codes in use. -/
inductive Rcode where
  | success
  | serverFailure
  | nameError
  | refused
  deriving DecidableEq

/-- The type of IPv4 records. -/
def typeA : Nat := 1

/-- The type of IPv6 records. -/
def typeAAAA : Nat := 28

/-- `dns.Question`, of class `IN`. -/
structure Question where
  name : Str
  qtype : Nat

/-- `dns.RR_Header`, of class `IN`. -/
structure Header where
  name : Str
  rrtype : Nat
  ttl : Nat

/-- Address records. -/
inductive Record where
  | a (hdr : Header) (address : BitVec 32)
  | aaaa (hdr : Header) (address : BitVec 128)

/-- What `buildReply` sets in a reply. -/
structure Reply where
  rcode : Rcode
  authoritative : Bool
  answer : List Record

/-- Seconds that an answer lives. -/
def defaultTTL : Nat := 5

/-- `Server`, without its listeners. -/
structure Server where
  ttl : Nat

namespace Server

/-- The header of an answer. -/
def header (s : Server) (name : Str) (qtype : Nat) : Header :=
  ⟨name, qtype, if s.ttl = 0 then defaultTTL else s.ttl⟩

/-- The records of the type asked for. -/
def appendAnswers (s : Server) (q : Question) (ips : List Str) : List Record :=
  if q.qtype = typeA then
    ips.filterMap fun ip =>
      ((parseIP ip).bind IP.to4).map fun v4 => .a (s.header q.name typeA) v4
  else if q.qtype = typeAAAA then
    ips.filterMap fun ip =>
      match parseIP ip with
      | some (.sixteen parsed) =>
        if (IP.sixteen parsed).to4 = none then some (.aaaa (s.header q.name typeAAAA) parsed)
        else none
      | _ => none
  else []

/-- `buildReply`, with the resolver as a function of namespace and name. -/
def buildReply {ε : Type} (s : Server) (unicode : CaseTable)
    (lookupClusterSet : Str → Str → Except ε (Option ResolvedService)) (question : List Question) :
    Reply :=
  match question with
  | [q] =>
    if inClusterSetZone unicode q.name = false then ⟨.refused, true, []⟩
    else
      match parseClusterSetName unicode q.name with
      | none => ⟨.nameError, true, []⟩
      | some (name, ns) =>
        match lookupClusterSet ns name with
        | .error _ => ⟨.serverFailure, true, []⟩
        | .ok none => ⟨.nameError, true, []⟩
        | .ok (some resolved) =>
          if resolved.ips = [] then ⟨.nameError, true, []⟩
          else ⟨.success, true, s.appendAnswers q resolved.ips⟩
  | _ => ⟨.refused, true, []⟩

end Server

/-- The host of a record; an IPv4 address stands for its mapped form. -/
def Record.host : Record → BitVec 128
  | a _ address => mapped address
  | aaaa _ address => address

theorem inClusterSetZone_of_parse {unicode : CaseTable} {qname : Str} {service : Str × Str}
    (parsed : parseClusterSetName unicode qname = some service) :
    inClusterSetZone unicode qname = true := by
  unfold parseClusterSetName at parsed
  unfold inClusterSetZone
  dsimp only at parsed ⊢
  split at parsed
  case isTrue => cases parsed
  case isFalse inside =>
    rw [Bool.not_eq_false] at inside
    rw [inside, Bool.or_true]

theorem sixteen_of_parseIP {text : Str} {ip : IP} (parsed : parseIP text = some ip) :
    ∃ host, ip = .sixteen host := by
  unfold parseIP at parsed
  split at parsed
  · exact ⟨_, (Option.some.inj parsed).symm⟩
  · exact ⟨_, (Option.some.inj parsed).symm⟩
  · cases parsed

/-- The host that a text denotes, with IPv4 addresses in their mapped form. -/
def hostOf (ip : Str) : Option (BitVec 128) :=
  match parseIP ip with
  | some (.sixteen host) => some host
  | _ => none

theorem parseIP_eq (ip : Str) : parseIP ip = (hostOf ip).map .sixteen := by
  unfold hostOf
  cases parsed : parseIP ip with
  | none => rfl
  | some address =>
    obtain ⟨host, rfl⟩ := sixteen_of_parseIP parsed
    rfl

variable {s : Server} {q : Question}

theorem Server.appendAnswers_a (asks : q.qtype = typeA) (ips : List Str) : s.appendAnswers q ips =
    ((ips.filterMap hostOf).filterMap unmap).map (Record.a (s.header q.name typeA)) := by
  rw [appendAnswers, if_pos asks, filterMap_filterMap, map_filterMap]
  congr 1
  funext ip
  rw [parseIP_eq]
  cases hostOf ip <;> rfl

theorem Server.appendAnswers_aaaa (asks : q.qtype = typeAAAA) (ips : List Str) :
    s.appendAnswers q ips = ((ips.filterMap hostOf).filter fun host => unmap host = none).map
      (Record.aaaa (s.header q.name typeAAAA)) := by
  rw [appendAnswers, if_neg (by rw [asks]; decide), if_pos asks, filter_filterMap, map_filterMap]
  congr 1
  funext ip
  rw [parseIP_eq]
  cases hostOf ip with
  | none => rfl
  | some host => by_cases high : unmap host = none <;> simp [IP.to4, high]

theorem Server.exists_answer_iff (s : Server) {q : Question} {ips : List Str} {host : BitVec 128} :
    (∃ record ∈ s.appendAnswers q ips, record.host = host) ↔
      ∃ ip ∈ ips, parseIP ip = some (.sixteen host) ∧
        ((q.qtype = typeA ∧ unmap host ≠ none) ∨ (q.qtype = typeAAAA ∧ unmap host = none)) := by
  have read : ∀ ip, parseIP ip = some (.sixteen host) ↔ hostOf ip = some host := by
    intro ip
    simp [parseIP_eq]
  simp only [read]
  by_cases asks_a : q.qtype = typeA
  · have not_aaaa : typeA ≠ typeAAAA := by decide
    simp only [appendAnswers_a asks_a, mem_map, mem_filterMap, asks_a, not_aaaa, true_and,
      false_and, or_false]
    constructor
    · rintro ⟨record, ⟨v4, ⟨own, ⟨ip, mem, denoted⟩, low⟩, rfl⟩, rfl⟩
      rw [Record.host, ← eq_mapped_of_unmap low]
      exact ⟨ip, mem, denoted, by simp [low]⟩
    · rintro ⟨ip, mem, denoted, four⟩
      obtain ⟨v4, low⟩ := Option.ne_none_iff_exists'.mp four
      exact ⟨_, ⟨v4, ⟨host, ⟨ip, mem, denoted⟩, low⟩, rfl⟩, (eq_mapped_of_unmap low).symm⟩
  · by_cases asks_aaaa : q.qtype = typeAAAA
    · have not_a : typeAAAA ≠ typeA := by decide
      simp only [appendAnswers_aaaa asks_aaaa, mem_map, mem_filter, mem_filterMap,
        asks_aaaa, not_a, true_and, false_and, false_or, decide_eq_true_eq]
      constructor
      · rintro ⟨record, ⟨own, ⟨⟨ip, mem, denoted⟩, high⟩, rfl⟩, rfl⟩
        exact ⟨ip, mem, denoted, high⟩
      · rintro ⟨ip, mem, denoted, high⟩
        exact ⟨_, ⟨host, ⟨⟨ip, mem, denoted⟩, high⟩, rfl⟩, rfl⟩
    · simp [appendAnswers, asks_a, asks_aaaa]

end DatawerxMesh.Dnsserver
