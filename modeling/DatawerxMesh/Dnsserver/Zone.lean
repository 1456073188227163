import DatawerxMesh.Dnsserver.Server
import DatawerxMesh.Library.Joining

/-!
# What the zone server answers

The names for which `buildReply` refuses, asks the resolver or denies, and the records with which it
answers.
-/

namespace DatawerxMesh.Dnsserver

open Go

/-- `FQDN` of `pkg/dns/naming.go`. -/
def fqdn (name namespace_ : Str) : Str :=
  name ++ "." ++ namespace_ ++ ".svc." ++ clusterSetDomain ++ "."

/-- A name of the zone. -/
def InZone (n : Str) : Prop := n = clusterSetZoneSuffix ∨ str "." ++ clusterSetZoneSuffix <:+ n

/-- A name or a namespace: neither empty nor with a dot. -/
def IsLabel (text : Str) : Prop := text ≠ [] ∧ 46 ∉ text

/-- The normalized name is that of a service. -/
def NamesService (n name namespace_ : Str) : Prop :=
  n = name ++ "." ++ namespace_ ++ "." ++ clusterSetZoneSuffix ∧
    IsLabel name ∧ IsLabel namespace_

/-- The reply depends on what the resolver says about the service. -/
def Server.Consults (s : Server) (unicode : CaseTable) (ε : Type) (question : List Question)
    (namespace_ name : Str) : Prop :=
  ∃ lookup other : Str → Str → Except ε (Option ResolvedService),
    (∀ service, service ≠ (namespace_, name) →
      lookup service.1 service.2 = other service.1 service.2) ∧
    s.buildReply unicode lookup question ≠ s.buildReply unicode other question

variable {unicode : CaseTable}

theorem inClusterSetZone_iff {qname : Str} :
    inClusterSetZone unicode qname = true ↔ InZone (normalizeName unicode qname) := by
  rw [inClusterSetZone, InZone, Bool.or_eq_true, beq_iff_eq, hasSuffix_iff]

theorem parseClusterSetName_iff {qname name namespace_ : Str} :
    parseClusterSetName unicode qname = some (name, namespace_) ↔
      NamesService (normalizeName unicode qname) name namespace_ := by
  unfold parseClusterSetName NamesService
  dsimp only
  generalize normalizeName unicode qname = n
  have shape : name ++ "." ++ namespace_ ++ "." ++ clusterSetZoneSuffix =
      (name ++ 46 :: namespace_) ++ (str "." ++ clusterSetZoneSuffix) := by
    simp [show str "." = [46] from rfl]
  rw [shape]
  constructor
  · intro parsed
    split at parsed
    · cases parsed
    · rename_i inside
      obtain ⟨front, rfl⟩ := hasSuffix_iff.mp (Bool.not_eq_false _ ▸ inside)
      rw [trimSuffix_append] at parsed
      split at parsed
      · cases parsed
      · split at parsed
        · rename_i parts
          split at parsed
          · cases parsed
          · rename_i filled
            rw [not_or] at filled
            obtain ⟨rfl, rfl⟩ := Prod.mk.inj (Option.some.inj parsed)
            obtain ⟨rfl, name_free, namespace_free⟩ := Joining.splitOn_eq_pair_iff.mp parts
            exact ⟨rfl, ⟨filled.1, name_free⟩, filled.2, namespace_free⟩
        · cases parsed
  · rintro ⟨rfl, ⟨name_ne, name_free⟩, namespace_ne, namespace_free⟩
    have parts := Joining.splitOn_eq_pair_iff.mpr ⟨rfl, name_free, namespace_free⟩
    rw [if_neg (by rw [hasSuffix_iff.mpr ⟨_, rfl⟩]; decide), trimSuffix_append,
      if_neg (by simp), parts]
    simp [name_ne, namespace_ne]

theorem NamesService.inZone {n name namespace_ : Str} (names : NamesService n name namespace_) :
    InZone n :=
  .inr ⟨name ++ str "." ++ namespace_, by rw [names.1]; simp⟩

variable {ε : Type} {s : Server} {lookup : Str → Str → Except ε (Option ResolvedService)}
  {q : Question} {name namespace_ : Str}

/-- The reply to a question about a service, given what the resolver says about it. -/
def Server.replyOf (s : Server) (q : Question) : Except ε (Option ResolvedService) → Reply
  | .error _ => ⟨.serverFailure, true, []⟩
  | .ok none => ⟨.nameError, true, []⟩
  | .ok (some resolved) =>
    if resolved.ips = [] then ⟨.nameError, true, []⟩
    else ⟨.success, true, s.appendAnswers q resolved.ips⟩

theorem buildReply_service (names : NamesService (normalizeName unicode q.name) name namespace_) :
    s.buildReply unicode lookup [q] = s.replyOf q (lookup namespace_ name) := by
  rw [Server.buildReply, if_neg (by rw [inClusterSetZone_iff.mpr names.inZone]; decide),
    parseClusterSetName_iff.mpr names]
  rfl

variable {question : List Question}

theorem buildReply_other
    (other : ¬ ∃ q name namespace_, question = [q] ∧
      NamesService (normalizeName unicode q.name) name namespace_)
    (lookup' : Str → Str → Except ε (Option ResolvedService)) :
    s.buildReply unicode lookup question = s.buildReply unicode lookup' question := by
  unfold Server.buildReply
  split
  · rename_i q
    split
    · rfl
    · split
      · rfl
      · rename_i name namespace_ parsed
        exact absurd ⟨q, name, namespace_, rfl, parseClusterSetName_iff.mp parsed⟩ other
  · rfl

theorem rcode_replyOf (answer : Except ε (Option ResolvedService)) :
    (s.replyOf q answer).rcode ≠ .refused := by
  unfold Server.replyOf
  split
  · decide
  · decide
  · split <;> exact Rcode.noConfusion

theorem refused_iff :
    (s.buildReply unicode lookup question).rcode = .refused ↔
      ¬ ∃ q, question = [q] ∧ InZone (normalizeName unicode q.name) := by
  unfold Server.buildReply
  split
  · rename_i q
    simp only [List.cons.injEq, and_true, exists_eq_left', ← inClusterSetZone_iff]
    split
    · simp_all
    · rename_i inside
      refine iff_of_false ?_ (not_not_intro (Bool.not_eq_false _ ▸ inside))
      split
      · decide
      · exact rcode_replyOf _
  · rename_i many
    exact iff_of_true rfl fun one => one.elim fun q only => many q only.1

theorem consults_iff :
    s.Consults unicode ε question namespace_ name ↔
      ∃ q, question = [q] ∧ NamesService (normalizeName unicode q.name) name namespace_ := by
  constructor
  · rintro ⟨lookup, other, agree, differ⟩
    by_contra unnamed
    apply differ
    by_cases about : ∃ q name namespace_, question = [q] ∧
        NamesService (normalizeName unicode q.name) name namespace_
    · obtain ⟨q, name', namespace', rfl, names⟩ := about
      have elsewhere : (namespace', name') ≠ (namespace_, name) := by
        rintro ⟨⟩
        exact unnamed ⟨q, rfl, names⟩
      rw [buildReply_service names, buildReply_service names, agree _ elsewhere]
    · exact buildReply_other about other
  · rintro ⟨q, rfl, names⟩
    refine ⟨fun _ _ => .ok none, fun a b => if (a, b) = (namespace_, name) then
      .ok (some ⟨.headless, [[]]⟩) else .ok none, fun service elsewhere => ?_, fun same => ?_⟩
    · exact (if_neg elsewhere).symm
    · rw [buildReply_service names, buildReply_service names, if_pos rfl] at same
      exact absurd (congrArg Reply.rcode same) (by simp [Server.replyOf])

theorem toLower_fqdn (name_lower : unicode.toLower name = name)
    (namespace_lower : unicode.toLower namespace_ = namespace_) :
    unicode.toLower (fqdn name namespace_) = fqdn name namespace_ := by
  have split : fqdn name namespace_ =
      name ++ 46 :: (namespace_ ++ 46 :: (str "svc." ++ clusterSetDomain ++ str ".")) := by
    simp [fqdn, show str ".svc." = 46 :: str "svc." from rfl, show str "." = [46] from rfl]
  rw [split, unicode.toLower_append (by decide), unicode.toLower_append (by decide), name_lower,
    namespace_lower, unicode.toLower_of_ascii (by decide +kernel)]
  rfl

theorem namesService_fqdn {qname : Str} (name_label : IsLabel name)
    (namespace_label : IsLabel namespace_) (name_lower : unicode.toLower name = name)
    (namespace_lower : unicode.toLower namespace_ = namespace_)
    (spelled : toLower qname = toLower (fqdn name namespace_)) :
    NamesService (normalizeName unicode qname) name namespace_ := by
  refine ⟨?_, name_label, namespace_label⟩
  have lowered : unicode.toLower qname = fqdn name namespace_ := by
    rw [← unicode.toLower_toLower, spelled, unicode.toLower_toLower,
      toLower_fqdn name_lower namespace_lower]
  rw [normalizeName, lowered, fqdn, trimSuffix_append, clusterSetZoneSuffix]
  simp [show str ".svc." = str "." ++ str "svc." from rfl]

/-- The server answers its zone and nothing else, whatever the case of runes outside ASCII: it
refuses other names, asks the resolver about the names of services and about nothing else, and
answers with the addresses of the queried family in the order of the resolver. -/
theorem buildReply_zone (ε : Type) (s : Server) (unicode : CaseTable) (question : List Question) :
    (∀ lookup : Str → Str → Except ε (Option ResolvedService),
      (s.buildReply unicode lookup question).rcode = .refused ↔
        ¬ ∃ q, question = [q] ∧ InZone (normalizeName unicode q.name)) ∧
      (∀ namespace_ name, s.Consults unicode ε question namespace_ name ↔
        ∃ q, question = [q] ∧ NamesService (normalizeName unicode q.name) name namespace_) ∧
      (∀ name namespace_ qname qtype, IsLabel name → IsLabel namespace_ →
        unicode.toLower name = name → unicode.toLower namespace_ = namespace_ →
        toLower qname = toLower (fqdn name namespace_) →
        s.Consults unicode ε [⟨qname, qtype⟩] namespace_ name) ∧
      ∀ (lookup : Str → Str → Except ε (Option ResolvedService)) (q : Question) (name namespace_),
        question = [q] → NamesService (normalizeName unicode q.name) name namespace_ →
        (∀ error, lookup namespace_ name = .error error →
          (s.buildReply unicode lookup question).rcode = .serverFailure) ∧
        ∀ resolved, lookup namespace_ name = .ok (some resolved) → resolved.ips ≠ [] →
          (s.buildReply unicode lookup question).rcode = .success ∧
          (q.qtype = typeA → (s.buildReply unicode lookup question).answer =
            ((resolved.ips.filterMap hostOf).filterMap unmap).map
              (Record.a (s.header q.name typeA))) ∧
          (q.qtype = typeAAAA → (s.buildReply unicode lookup question).answer =
            ((resolved.ips.filterMap hostOf).filter fun host => unmap host = none).map
              (Record.aaaa (s.header q.name typeAAAA))) ∧
          (q.qtype ≠ typeA → q.qtype ≠ typeAAAA →
            (s.buildReply unicode lookup question).answer = []) := by
  refine ⟨fun lookup => refused_iff, fun namespace_ name => consults_iff, ?_, ?_⟩
  · intro name namespace_ qname qtype name_label namespace_label name_lower namespace_lower spelled
    exact consults_iff.mpr ⟨_, rfl,
      namesService_fqdn name_label namespace_label name_lower namespace_lower spelled⟩
  · rintro lookup q name namespace_ rfl names
    rw [buildReply_service names]
    refine ⟨fun error failed => by rw [failed]; rfl, fun resolved found some_ip => ?_⟩
    rw [found, Server.replyOf, if_neg some_ip]
    refine ⟨rfl, fun asks => Server.appendAnswers_a asks _,
      fun asks => Server.appendAnswers_aaaa asks _,
      fun not_a not_aaaa => ?_⟩
    rw [Server.appendAnswers, if_neg not_a, if_neg not_aaaa]

end DatawerxMesh.Dnsserver
