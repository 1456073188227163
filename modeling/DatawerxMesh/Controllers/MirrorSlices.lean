import DatawerxMesh.Dns.Mirror
import DatawerxMesh.Library.Frame

/-!
# Writing the mirrored endpoint slices

`reconcileMirrorSlices` of `pkg/controllers/serviceimport_controller.go` prunes slices by their
labels and writes them by their names.
-/

namespace DatawerxMesh.Dns

open Go

/-- A stored EndpointSlice, as far as `applyMirrorSlice` writes it. -/
structure SliceBody extends EndpointSlice where
  labels : List (Str × Str)
  addressType : AddressType
  ports : List EndpointPort
  deriving DecidableEq

/-- What is stored of a planned slice. -/
def MirroredSlice.body (slice : MirroredSlice) : SliceBody :=
  ⟨slice.toEndpointSlice, slice.labels, slice.addressType, slice.ports⟩

/-- The namespace and the name of a planned slice. -/
def MirroredSlice.place (slice : MirroredSlice) : Str × Str := (slice.namespace_, slice.name)

end DatawerxMesh.Dns

namespace DatawerxMesh.Controllers

open Go Program World ApiServer Sorting DatawerxMesh.Dns

variable {endpoints : List ExportedEndpoint}

/-- A stored EndpointSlice with its metadata. -/
abbrev HeldSlice := Held Str SliceBody

/-- The EndpointSlices of a cluster by namespace and name. -/
abbrev Slices := Store (Str × Str) Str SliceBody

/-- `client.MatchingLabels`. -/
def matchesLabels (selector labels : List (Str × Str)) : Bool :=
  selector.all fun label => labels.lookup label.1 == some label.2

/-- The slices of a namespace with the labels. -/
def Slices.labelled (slices : Slices) (namespace_ : Str) (selector : List (Str × Str)) :
    List ((Str × Str) × HeldSlice) :=
  (Store.list slices fun stored => matchesLabels selector stored.body.labels).filter fun item =>
    item.1.1 = namespace_

theorem mem_labelled {slices : Slices} {namespace_ : Str} {selector : List (Str × Str)}
    (item : (Str × Str) × HeldSlice) :
    item ∈ Slices.labelled slices namespace_ selector ↔ slices.find item.1 = some item.2 ∧
      item.1.1 = namespace_ ∧ matchesLabels selector item.2.body.labels = true := by
  rw [Slices.labelled, List.mem_filter, Store.mem_list, decide_eq_true_eq, and_assoc,
    and_comm (a := _ = true)]

/-- What `reconcileMirrorSlices` calls. -/
inductive SliceCall where
  | list (namespace_ : Str) (selector : List (Str × Str))
  | get (place : Str × Str)
  | write (place : Str × Str) (request : Write Str SliceBody)

/-- What a call returns. -/
abbrev SliceCall.Value : SliceCall → Type
  | list _ _ => List ((Str × Str) × HeldSlice)
  | get _ => HeldSlice
  | write _ _ => Unit

/-- The answer to a call. -/
abbrev SliceCall.Answer (call : SliceCall) : Type := Except (Error Str) call.Value

/-- A program of calls that may fail. -/
abbrev SliceProcedure := ExceptT Str (Script SliceCall SliceCall.Answer)

/-- The body before the first write. -/
def emptySlice : SliceBody := ⟨⟨[]⟩, [], .ipv4, []⟩

/-- A slice is created or brought up to date. -/
def applyMirrorSlice (want : MirroredSlice) : SliceProcedure Unit := ExceptT.mk do
  match ← createOrUpdate (Script.perform (SliceCall.get want.place))
      (fun request => Script.perform (SliceCall.write want.place request)) emptySlice
      (fun _ => want.body) with
  | .ok () => pure (.ok ())
  | .error error => pure (.error ("applying mirrored EndpointSlice " ++ want.namespace_ ++
      "/" ++ want.name ++ ": " ++ error.text))

/-- The labels of the slices that an import owns. -/
def mirrorSelector (importName : Str) : List (Str × Str) :=
  [("multicluster.kubernetes.io/service-name", importName),
    ("endpointslice.kubernetes.io/managed-by", mirrorManagedBy)]

/-- The slices that an import owns. -/
def listMirrorSlices (key : ServiceKey) : SliceProcedure (List ((Str × Str) × HeldSlice)) :=
  ExceptT.mk (.call (.list key.namespace_ (mirrorSelector key.name)) fun answer =>
    .done (answer.mapError fun error => "listing mirrored EndpointSlices for " ++ key.string ++
      ": " ++ error.text))

/-- Delete a slice, which may be gone already. -/
def pruneMirrorSlice (place : Str × Str) : SliceProcedure Unit :=
  ExceptT.mk (.call (.write place .delete) fun
    | .ok () => .done (.ok ())
    | .error error =>
      if error.notFound then .done (.ok ())
      else .done (.error ("pruning mirrored EndpointSlice " ++ place.1 ++ "/" ++
        place.2 ++ ": " ++ error.text)))

/-- `reconcileMirrorSlices` once the slices of the import are listed. -/
def writeMirrorSlices (desired : List MirroredSlice) (existing : List ((Str × Str) × HeldSlice)) :
    SliceProcedure Unit := do
  desired.forM applyMirrorSlice
  existing.forM fun slice =>
    if slice.1.2 ∈ desired.map MirroredSlice.name then pure () else pruneMirrorSlice slice.1

/-- The planned slices are written and all others pruned. -/
def reconcileMirrorSlices (go : Runtime MirrorSite) (key : ServiceKey)
    (endpoints : List ExportedEndpoint) : SliceProcedure Unit := do
  let desired :=
    if endpoints = [] then [] else planEndpointSlices go key.name key.namespace_ endpoints
  let existing ← listMirrorSlices key
  writeMirrorSlices desired existing

/-- The server accepts a request.  The address type of a slice is immutable. -/
def Accepts (request : Write Str SliceBody) (stored object : Option HeldSlice) : Prop :=
  request.apply stored = some object ∧ ∀ read finalizers body,
    request = .update read finalizers body → body.addressType = read.body.addressType

/-- What a call that is carried out returns and does. -/
def SliceCall.Carried : (call : SliceCall) → Slices → call.Value → Slices → Prop
  | list namespace_ selector, before, items, after =>
    (∀ item, item ∈ items ↔ before.find item.1 = some item.2 ∧ item.1.1 = namespace_ ∧
      matchesLabels selector item.2.body.labels = true) ∧ after = before
  | get place, before, held, after => before.find place = some held ∧ after = before
  | write place request, before, _, after =>
    ∃ object, Accepts request (before.find place) object ∧ after = before.put place object

/-- The call names a slice that does not exist. -/
def SliceCall.Missing : SliceCall → Slices → Prop
  | list _ _, _ => False
  | get place, slices | write place _, slices => slices.find place = none

/-- No run changes the slice of a name, whatever others do elsewhere. -/
abbrev SparesSlice {α : Type} (place : Str × Str) (script : SliceProcedure α) (slices : Slices) :
    Prop :=
  Spares (fun call : SliceCall => Answers call.Carried call.Missing)
    (fun seen => seen.find place) script.run slices

/-- A slice that mirrors this service. -/
def MirroredFor (key : ServiceKey) (place : Str × Str) (held : HeldSlice) : Prop :=
  place.1 = key.namespace_ ∧ matchesLabels (mirrorSelector key.name) held.body.labels = true

/-- A contributing cluster has addresses for a slice of the name and the family stored there. -/
def Claimed (key : ServiceKey) (endpoints : List ExportedEndpoint) (place : Str × Str)
    (held : HeldSlice) : Prop :=
  ∃ ep ∈ endpoints, ∃ chunk,
    chunk * maxEndpointsPerSlice < (addressesOfFamily ep.ips held.body.addressType).length ∧
      place = (key.namespace_, mirrorSliceName key.name ep.cluster held.body.addressType chunk)

theorem claimed_iff {key : ServiceKey} {place : Str × Str} {held : HeldSlice}
    (go : Runtime MirrorSite) :
    Claimed key endpoints place held ↔
      ∃ want ∈ planEndpointSlices go key.name key.namespace_ endpoints,
        want.place = place ∧ want.addressType = held.body.addressType := by
  constructor
  · rintro ⟨ep, mem, chunk, left, rfl⟩
    refine ⟨_, mem_planEndpointSlices.mpr ⟨ep, mem, mem_clusterSlices.mpr
      ⟨held.body.addressType, (_, _), mem_chunks.mpr ⟨left, rfl⟩, rfl⟩⟩, rfl, rfl⟩
  · rintro ⟨want, mem, rfl, family⟩
    obtain ⟨ep, in_endpoints, in_slices⟩ := mem_planEndpointSlices.mp mem
    obtain ⟨fam, ⟨chunk, part⟩, in_chunks, rfl⟩ := mem_clusterSlices.mp in_slices
    obtain rfl : fam = held.body.addressType := family
    exact ⟨ep, in_endpoints, chunk, (mem_chunks.mp in_chunks).1, rfl⟩

theorem matchesLabels_mirrorLabels (importName cluster : Str) :
    matchesLabels (mirrorSelector importName) (mirrorLabels importName cluster) = true := by
  have service : (mirrorLabels importName cluster).lookup
      (str "multicluster.kubernetes.io/service-name") = some importName := rfl
  have manager : (mirrorLabels importName cluster).lookup
      (str "endpointslice.kubernetes.io/managed-by") = some mirrorManagedBy := rfl
  simp [matchesLabels, mirrorSelector, service, manager]

theorem labels_of_mem_plan {go : Runtime MirrorSite} {key : ServiceKey} {want : MirroredSlice}
    (mem : want ∈ planEndpointSlices go key.name key.namespace_ endpoints) :
    want.namespace_ = key.namespace_ ∧
      matchesLabels (mirrorSelector key.name) want.labels = true := by
  obtain ⟨ep, -, in_slices⟩ := mem_planEndpointSlices.mp mem
  obtain ⟨fam, chunk, -, rfl⟩ := mem_clusterSlices.mp in_slices
  exact ⟨rfl, matchesLabels_mirrorLabels key.name ep.cluster⟩

section Sparing

variable {place : Str × Str} {held : HeldSlice} {slices : Slices} {want : MirroredSlice}

/-- The call cannot change the slice of the name. -/
def SliceCall.Harmless (place : Str × Str) (held : HeldSlice) : SliceCall → Prop
  | list _ _ | get _ => True
  | write other request => other = place → ∀ object, ¬ Accepts request (some held) object

theorem find_of_harmless {call : SliceCall} (harmless : call.Harmless place held)
    {before after : Slices} {answer : call.Answer} (found : before.find place = some held)
    (answers : Answers call.Carried call.Missing before answer after) :
    after.find place = some held := by
  rcases answers.effect with rfl | ⟨value, carried⟩
  · exact found
  · cases call with
    | list namespace_ selector => rwa [carried.2]
    | get read => rwa [carried.2]
    | write other request =>
      obtain ⟨object, accepted, rfl⟩ := carried
      by_cases same : other = place
      · subst same
        rw [found] at accepted
        exact absurd accepted (harmless rfl object)
      · rwa [Store.find_put, Function.update_of_ne (Ne.symm same)]

theorem spares_of_harmless {α : Type} {script : SliceProcedure α}
    (makes : script.run.Makes (SliceCall.Harmless place held))
    (found : slices.find place = some held) : SparesSlice place script slices := by
  refine World.spares_of_makes (fun call before answer after harmless kept answers => ?_) makes
  exact (find_of_harmless harmless (kept.trans found) answers).trans found.symm

theorem makes_applyMirrorSlice
    (other : want.place = place → want.addressType ≠ held.body.addressType) :
    (applyMirrorSlice want).run.Makes (SliceCall.Harmless place held) := by
  refine Script.Makes.bind (Script.Makes.createOrUpdate (Script.makes_perform trivial)
    (Script.makes_perform ?_) fun existing => Script.makes_perform ?_) fun result => ?_
  · rintro - object ⟨created, -⟩
    cases (Write.apply_create_eq_some.mp created).1
  · rintro same object ⟨updated, immutable⟩
    obtain rfl := Option.some.inj (Write.apply_update_eq_some.mp updated).1
    exact other same (immutable _ _ _ rfl)
  · cases result <;> exact trivial

theorem makes_pruneMirrorSlice {other : Str × Str} (differs : other ≠ place) :
    (pruneMirrorSlice other).run.Makes (SliceCall.Harmless place held) := by
  refine ⟨fun same => absurd same differs, fun answer => ?_⟩
  cases answer with
  | ok _ => exact trivial
  | error error =>
    dsimp only
    split
    · exact trivial
    · exact trivial

theorem planEndpointSlices_nil (go : Runtime MirrorSite) (importName namespace_ : Str) :
    planEndpointSlices go importName namespace_ [] = [] := by
  refine List.eq_nil_iff_forall_not_mem.mpr fun want mem => ?_
  obtain ⟨ep, impossible, -⟩ := mem_planEndpointSlices.mp mem
  cases impossible

theorem reconcileMirrorSlices_eq (go : Runtime MirrorSite) (key : ServiceKey)
    (endpoints : List ExportedEndpoint) :
    reconcileMirrorSlices go key endpoints = listMirrorSlices key >>=
      writeMirrorSlices (planEndpointSlices go key.name key.namespace_ endpoints) := by
  rw [reconcileMirrorSlices]
  split
  case isTrue empty => rw [empty, planEndpointSlices_nil]
  case isFalse => rfl

theorem makes_writeMirrorSlices {desired : List MirroredSlice}
    {existing : List ((Str × Str) × HeldSlice)}
    (other : ∀ want ∈ desired, want.place = place → want.addressType ≠ held.body.addressType)
    (unlisted : ∀ slice ∈ existing, slice.1 ≠ place) :
    (writeMirrorSlices desired existing).run.Makes (SliceCall.Harmless place held) := by
  refine Script.Makes.attempt (Script.Makes.forM fun want mem =>
    makes_applyMirrorSlice (other want mem)) fun _ => Script.Makes.forM fun slice mem => ?_
  split
  · exact trivial
  · exact makes_pruneMirrorSlice (unlisted slice mem)

theorem spares_of_not_claimed {key : ServiceKey} {endpoints : List ExportedEndpoint}
    (found : slices.find place = some held) (foreign : ¬ MirroredFor key place held)
    (unclaimed : ¬ Claimed key endpoints place held) (go : Runtime MirrorSite) :
    SparesSlice place (reconcileMirrorSlices go key endpoints) slices := by
  rw [SparesSlice, reconcileMirrorSlices_eq]
  refine World.spares_call_iff.mpr fun seen answer after same answers => ?_
  have seen_found : seen.find place = some held := same.trans found
  obtain rfl : after = seen := answers.effect.elim id (Exists.elim · fun _ => And.right)
  refine ⟨same, ?_⟩
  obtain ⟨items, rfl, listed, -⟩ | ⟨error, rfl, -⟩ := answers
  · refine spares_of_harmless (makes_writeMirrorSlices (fun want mem at_place family => ?_) ?_)
      seen_found
    · exact unclaimed ((claimed_iff go).mpr ⟨want, mem, at_place, family⟩)
    · rintro ⟨other, stored⟩ mem rfl
      obtain ⟨stored_found, placed, labelled⟩ := (listed _).mp mem
      obtain rfl := Option.some.inj (stored_found.symm.trans seen_found)
      exact foreign ⟨placed, labelled⟩
  · exact ⟨rfl, trivial⟩

/-- The world in which others keep the slice of a name. -/
abbrev sliceWorld (place : Str × Str) : World SliceCall SliceCall.Answer Slices :=
  World.sparing (fun call : SliceCall => Answers call.Carried call.Missing) fun seen =>
    seen.find place

/-- Others remove the slices in the way, so a planned slice of another name is written. -/
theorem returns_applyMirrorSlice (differs : want.place ≠ place)
    (found : slices.find place = some held) :
    ∃ after : Slices, after.find place = some held ∧
      (sliceWorld place).Returns (applyMirrorSlice want).run slices (.ok ()) after := by
  let cleared : Slices := (∅ : Slices).put place (some held)
  have cleared_found : cleared.find place = some held := by
    rw [Store.find_put, Function.update_self]
  have cleared_missing : cleared.find want.place = none := by
    rw [Store.find_put, Function.update_of_ne differs]
    rfl
  refine ⟨cleared.put want.place (some (.create [] want.body)), ?_, ?_⟩
  · rw [Store.find_put, Function.update_of_ne differs.symm, cleared_found]
  · refine Returns.bind (World.returns_create (rfl : (⟨true, []⟩ : Error Str).notFound = true)
      (World.returns_perform (World.drifts_sparing.mpr (cleared_found.trans found.symm))
        (.inr ⟨_, rfl, fun _ => cleared_missing, .inl rfl⟩))
      (World.returns_perform .refl (.inl ⟨(), rfl, _, ⟨?_, ?_⟩, rfl⟩))) (.done (Except.ok ()) _)
    · rw [cleared_missing]
      exact Write.apply_create_eq_some.mpr ⟨rfl, rfl⟩
    · rintro read finalizers body ⟨⟩

section

variable (at_place : want.place = place) (family : want.addressType = held.body.addressType)
  (changes : want.body ≠ held.body)

include at_place family changes

theorem not_spares_applyMirrorSlice (found : slices.find place = some held) :
    ¬ SparesSlice place (applyMirrorSlice want) slices := by
  subst at_place
  intro spares
  have returns : (sliceWorld want.place).Returns (applyMirrorSlice want).run slices (.ok ())
      (slices.put want.place (some (held.withBody want.body))) := by
    refine Returns.bind (World.returns_update changes
      (World.returns_perform .refl (.inl ⟨held, rfl, found, rfl⟩))
      (World.returns_perform .refl (.inl ⟨(), rfl, _, ⟨?_, ?_⟩, rfl⟩))) (.done (Except.ok ()) _)
    · rw [found, ← Held.update_finalizers]
      exact Write.apply_update_eq_some.mpr ⟨rfl, rfl⟩
    · rintro read finalizers body ⟨⟩
      exact family
  have kept := spares.returns returns
  rw [Store.find_put, Function.update_self, found] at kept
  exact changes (congrArg Held.body (Option.some.inj kept))

theorem not_spares_applies
    (before after : List MirroredSlice) (fresh : ∀ other ∈ before, other.place ≠ place)
    (found : slices.find place = some held) :
    ¬ SparesSlice place ((before ++ want :: after).forM applyMirrorSlice) slices := by
  induction before generalizing slices with
  | nil => exact fun spares =>
    not_spares_applyMirrorSlice at_place family changes found (Spares.left spares)
  | cons other before ih =>
    intro spares
    obtain ⟨seen, seen_found, returns⟩ :=
      returns_applyMirrorSlice (fresh other List.mem_cons_self) found
    exact ih (fun other mem => fresh other (List.mem_cons_of_mem _ mem)) seen_found
      (Spares.follow spares returns).2

end

theorem exists_listed (slices : Slices) (key : ServiceKey) :
    ∃ items, (sliceWorld place).Returns (listMirrorSlices key).run slices (.ok items) slices :=
  ⟨Slices.labelled slices key.namespace_ (mirrorSelector key.name),
    .call .refl (.inl ⟨_, rfl, mem_labelled, rfl⟩) (.done (Except.ok _) _)⟩

theorem not_spares_of_first {go : Runtime MirrorSite} {key : ServiceKey}
    {endpoints : List ExportedEndpoint} {before after : List MirroredSlice}
    (plan_eq : planEndpointSlices go key.name key.namespace_ endpoints = before ++ want :: after)
    (fresh : ∀ other ∈ before, other.place ≠ place) (at_place : want.place = place)
    (family : want.addressType = held.body.addressType) (found : slices.find place = some held)
    (foreign : ¬ MirroredFor key place held) :
    ¬ SparesSlice place (reconcileMirrorSlices go key endpoints) slices := by
  intro spares
  rw [SparesSlice, reconcileMirrorSlices_eq, plan_eq] at spares
  obtain ⟨namespace_eq, labelled⟩ : want.namespace_ = key.namespace_ ∧
      matchesLabels (mirrorSelector key.name) want.labels = true :=
    labels_of_mem_plan (by rw [plan_eq]; simp)
  have changes : want.body ≠ held.body := by
    intro same
    refine foreign ⟨at_place ▸ namespace_eq, ?_⟩
    rw [← same]
    exact labelled
  obtain ⟨items, returns⟩ := exists_listed slices key
  exact not_spares_applies at_place family changes before after fresh found
    (Spares.left (Spares.follow spares returns).2)

end Sparing

/-- The slices come rotated. -/
def turnSlices (turn : Nat) : MirrorSite → Nat
  | .slices => turn
  | .endpoints | .existing => 0

theorem exists_first_of_claimed {key : ServiceKey} {place : Str × Str} {held : HeldSlice}
    (claimed : Claimed key endpoints place held) :
    ∃ go before want after,
      planEndpointSlices go key.name key.namespace_ endpoints = before ++ want :: after ∧
      (∀ other ∈ before, other.place ≠ place) ∧ want.place = place ∧
        want.addressType = held.body.addressType := by
  let byName (a b : MirroredSlice) : Bool := less a.name b.name
  let items := (sort lessCluster (endpoints.rotate 0)).flatMap
    (clusterSlices key.name key.namespace_)
  obtain ⟨want, mem, at_place, family⟩ := (claimed_iff (.turning fun _ => 0)).mp claimed
  have in_items : want ∈ items := List.mem_rotate.mp ((mem_sort byName).mp mem)
  obtain ⟨front, back, items_eq⟩ := List.append_of_mem in_items
  have plan_eq : planEndpointSlices (.turning (turnSlices front.length)) key.name key.namespace_
      endpoints = sort byName (want :: (back ++ front)) := by
    change sort byName (items.rotate front.length) = _
    rw [items_eq, List.rotate_append_length_eq, List.cons_append]
  obtain ⟨before, after, sorted, smaller⟩ := sort_cons byName want (back ++ front)
  refine ⟨_, before, want, after, plan_eq.trans sorted, ?_, at_place, family⟩
  intro other earlier same
  have name_eq : other.name = want.name := congrArg Prod.snd (same.trans at_place.symm)
  have before_itself : less want.name want.name = true := by
    rw [← congrArg (less · want.name) name_eq]
    exact smaller other earlier
  rw [less_orders.irrefl] at before_itself
  cases before_itself

/-- Reconciling the slices of an import spares a slice that is not labelled as mirrored for it
exactly when no contributing cluster claims the name of this slice. -/
theorem mirroring_spares_iff (key : ServiceKey) (endpoints : List ExportedEndpoint)
    (slices : Slices) (place : Str × Str) (held : HeldSlice)
    (found : slices.find place = some held) (foreign : ¬ MirroredFor key place held) :
    (∀ go, SparesSlice place (reconcileMirrorSlices go key endpoints) slices) ↔
      ¬ Claimed key endpoints place held := by
  constructor
  · intro spares claimed
    obtain ⟨go, before, want, after, plan_eq, fresh, at_place, family⟩ :=
      exists_first_of_claimed claimed
    exact not_spares_of_first plan_eq fresh at_place family found foreign (spares go)
  · exact fun unclaimed go => spares_of_not_claimed found foreign unclaimed go

/-- A cluster that contributes one address to a headless service. -/
def contributor (cluster : Str) : ExportedEndpoint :=
  ⟨cluster, .headless, [], ["10.1.0.5"], 5⟩

/-- A slice of the cluster's own controller. -/
def nativeSlice : HeldSlice :=
  .create [] ⟨⟨[]⟩, [("kubernetes.io/service-name", "web")], .ipv4, []⟩

theorem mirroring_spares_native :
    SparesSlice ("prod", "web-x7k2p")
      (reconcileMirrorSlices (.stable MirrorSite) ⟨"prod", "web"⟩ [contributor "a"])
      ((∅ : Slices).put ("prod", "web-x7k2p") (some nativeSlice)) := by
  have unlabelled : matchesLabels (mirrorSelector "web") nativeSlice.body.labels ≠ true := by
    decide
  refine (mirroring_spares_iff _ _ _ _ nativeSlice ?_ fun owned => unlabelled owned.2).mpr ?_
    (.stable MirrorSite)
  · rw [Store.find_put, Function.update_self]
  · rintro ⟨ep, mem, chunk, left, place_eq⟩
    obtain rfl := List.mem_singleton.mp mem
    have only : (addressesOfFamily (contributor "a").ips .ipv4).length = 1 := by
      decide +kernel
    obtain rfl : chunk = 0 := by
      change chunk * 100 < (addressesOfFamily (contributor "a").ips .ipv4).length at left
      omega
    revert place_eq
    decide

/-- The slice of the import `web-a` from cluster `b`. -/
def otherImport : MirroredSlice :=
  mirrorSlice "web-a" "prod" "b" .ipv4 ["10.2.0.5"] [] 0

/-- The imports `web` from cluster `a-b` and `web-a` from cluster `b` have one slice, and
reconciling the former replaces the latter. -/
theorem imports_share_slice :
    otherImport.place = (str "prod", str "web-a-b-ipv4-0") ∧
      (planEndpointSlices (.stable MirrorSite) "web" "prod"
        [contributor "a-b"]).map MirroredSlice.place =
          [(str "prod", str "web-a-b-ipv4-0")] ∧
      MirroredFor ⟨"prod", "web-a"⟩ otherImport.place (.create [] otherImport.body) ∧
      ¬ MirroredFor ⟨"prod", "web"⟩ otherImport.place (.create [] otherImport.body) ∧
      ¬ SparesSlice otherImport.place
        (reconcileMirrorSlices (.stable MirrorSite) ⟨"prod", "web"⟩
          [contributor "a-b"])
        ((∅ : Slices).put otherImport.place (some (.create [] otherImport.body))) := by
  have plan_eq : planEndpointSlices (.stable MirrorSite) "web" "prod"
      [contributor "a-b"] = [] ++
        mirrorSlice "web" "prod" "a-b" .ipv4 ["10.1.0.5"] [] 0 :: [] := by
    decide +kernel
  have foreign : ¬ MirroredFor ⟨"prod", "web"⟩ otherImport.place
      (.create [] otherImport.body) := by
    rintro ⟨-, labelled⟩
    revert labelled
    decide
  have place_eq : otherImport.place = (str "prod", str "web-a-b-ipv4-0") := by decide
  have planned_place : (mirrorSlice "web" "prod" "a-b" .ipv4 ["10.1.0.5"] []
      0).place = (str "prod", str "web-a-b-ipv4-0") := by decide
  refine ⟨place_eq, ?_, ⟨rfl, by decide⟩, foreign, ?_⟩
  · rw [plan_eq, List.nil_append, List.map_singleton, planned_place]
  · have found : ((∅ : Slices).put otherImport.place (some (.create [] otherImport.body))).find
        otherImport.place = some (.create [] otherImport.body) := by
      rw [Store.find_put, Function.update_self]
    exact @not_spares_of_first _ _ _ _ _ ⟨"prod", "web"⟩ _ _ _ plan_eq (by simp)
      (planned_place.trans place_eq.symm) rfl found foreign

end DatawerxMesh.Controllers
