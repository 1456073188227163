import DatawerxMesh.Controllers.MirrorSlices

/-!
# Converging the mirrored endpoint slices

`reconcileMirrorSlices` when its calls succeed: it ends with the planned slices, and a second run
changes nothing.
-/

namespace DatawerxMesh.Controllers

open Go Program ApiServer DatawerxMesh.Dns List

/-- The update keeps the address type, which is immutable. -/
def keepsAddressType : Write Str SliceBody → Bool
  | .update read _ body => body.addressType = read.body.addressType
  | .create _ _ | .delete => true

/-- A server that carries out what it can, and lists slices in any order. -/
def serveSlices (mirror : Runtime MirrorSite) : (call : SliceCall) → Slices → call.Answer × Slices
  | .list namespace_ selector, slices =>
    (.ok (mirror.range .existing (Slices.labelled slices namespace_ selector)), slices)
  | .get place, slices =>
    match slices.find place with
    | some held => (.ok held, slices)
    | none => (.error ⟨true, []⟩, slices)
  | .write place request, slices =>
    match request.apply (slices.find place), keepsAddressType request with
    | some object, true => (.ok (), slices.put place object)
    | _, _ => (.error ⟨(slices.find place).isNone, []⟩, slices)

/-- The effect of `applyMirrorSlice`. -/
def writeSlice (slices : Slices) (want : MirroredSlice) : Slices :=
  slices.write want.place emptySlice fun _ => want.body

/-- The names that `reconcileMirrorSlices` prunes. -/
def stalePlaces (desired : List MirroredSlice) (existing : List ((Str × Str) × HeldSlice)) :
    List (Str × Str) :=
  (existing.filter fun item => item.1.2 ∉ desired.map MirroredSlice.name).map Prod.fst

section Runs

variable {mirror : Runtime MirrorSite} {slices after : Slices} {key : ServiceKey}
  {desired : List MirroredSlice} {existing : List ((Str × Str) × HeldSlice)}

theorem exec_pruneMirrorSlice (place : Str × Str) (slices : Slices) :
    (pruneMirrorSlice place).run.exec (serveSlices mirror) slices =
      (.ok (), slices.delete place) := by
  cases found : slices.find place with
  | none => simp [pruneMirrorSlice, ExceptT.run, ExceptT.mk, Script.exec, serveSlices, found,
      Write.apply, Store.delete]
  | some held => simp [pruneMirrorSlice, ExceptT.run, ExceptT.mk, Script.exec, serveSlices, found,
      Write.apply, Store.delete, keepsAddressType]

/-- Only an update that changes the slice can be refused. -/
theorem exec_applyMirrorSlice (mirror : Runtime MirrorSite) (want : MirroredSlice)
    (slices : Slices) :
    (applyMirrorSlice want).run.exec (serveSlices mirror) slices =
        (.ok (), writeSlice slices want) ∨
      (∃ error, (applyMirrorSlice want).run.exec (serveSlices mirror) slices =
        (.error error, slices)) ∧
        ∀ held, slices.find want.place = some held → held.body ≠ want.body := by
  have get_eq : (Script.perform (SliceCall.get want.place)).exec (serveSlices mirror) slices =
      serveSlices mirror (.get want.place) slices := rfl
  have write_eq : ∀ request, (Script.perform (SliceCall.write want.place request)).exec
      (serveSlices mirror) slices = serveSlices mirror (.write want.place request) slices :=
    fun _ => rfl
  rw [applyMirrorSlice, ExceptT.run, ExceptT.mk, Script.exec_bind, writeSlice, Store.write]
  cases found : slices.find want.place with
  | none =>
    rw [serveSlices, found] at get_eq
    rw [exec_create rfl get_eq, write_eq, serveSlices, found]
    exact .inl rfl
  | some held =>
    rw [serveSlices, found] at get_eq
    rw [exec_update get_eq, write_eq, serveSlices, found, Write.apply, if_pos rfl,
      Held.update_finalizers, keepsAddressType]
    by_cases same : want.body = held.body
    · rw [if_pos same]
      exact .inl (congrArg _ (if_pos same).symm)
    · rw [if_neg same]
      by_cases family : want.body.addressType = held.body.addressType
      · rw [decide_eq_true family]
        exact .inl (congrArg _ (if_neg same).symm)
      · rw [decide_eq_false family]
        exact .inr ⟨⟨_, rfl⟩, fun other found => Option.some.inj found ▸ Ne.symm same⟩

theorem exec_applies_eq_ok (ran : (desired.forM applyMirrorSlice).run.exec (serveSlices mirror)
    slices = (.ok (), after)) : after = desired.foldl writeSlice slices := by
  refine Script.exec_forM_eq_ok (fun want before middle ran => ?_) ran
  obtain applied | ⟨⟨error, failed⟩, -⟩ := exec_applyMirrorSlice mirror want before
  · exact (congrArg Prod.snd (applied.symm.trans ran)).symm
  · cases failed.symm.trans ran

theorem exec_prunes (names : List Str) (existing : List ((Str × Str) × HeldSlice))
    (slices : Slices) :
    (existing.forM fun slice => if slice.1.2 ∈ names then pure ()
      else pruneMirrorSlice slice.1).run.exec (serveSlices mirror) slices =
        (.ok (), ((existing.filter fun item => item.1.2 ∉ names).map Prod.fst).foldl Store.delete
          slices) := by
  rw [foldl_map, foldl_filter]
  refine Script.exec_forM (fun _ => True) (fun item _ before _ => ⟨?_, trivial⟩) trivial
  by_cases kept : item.1.2 ∈ names
  · simp only [kept, if_true, not_true, decide_false, Bool.false_eq_true, if_false]
    rfl
  · simp only [kept, if_false, not_false_eq_true, decide_true, if_true]
    exact exec_pruneMirrorSlice item.1 before

/-- A run that returns no error writes the planned slices and deletes the other ones. -/
theorem exec_writeMirrorSlices_eq_ok
    (ran : (writeMirrorSlices desired existing).run.exec (serveSlices mirror) slices =
      (.ok (), after)) :
    after = (stalePlaces desired existing).foldl Store.delete
      (desired.foldl writeSlice slices) := by
  obtain ⟨⟨⟩, middle, applied, pruned⟩ := Script.exec_attempt_eq_ok ran
  rw [exec_applies_eq_ok applied, exec_prunes] at pruned
  exact (congrArg Prod.snd pruned).symm

theorem exec_writeMirrorSlices_of_stored
    (stored : ∀ want ∈ desired, ∃ held, slices.find want.place = some held ∧
      held.body = want.body) :
    (writeMirrorSlices desired existing).run.exec (serveSlices mirror) slices =
      (.ok (), (stalePlaces desired existing).foldl Store.delete slices) := by
  have applied : (desired.forM applyMirrorSlice).run.exec (serveSlices mirror) slices =
      (.ok (), desired.foldl (fun seen _ => seen) slices) := by
    refine Script.exec_forM (· = slices) (fun want mem before same => ⟨?_, same⟩) rfl
    obtain ⟨held, found, body_eq⟩ := stored want mem
    rw [same]
    obtain applied | ⟨-, differs⟩ := exec_applyMirrorSlice mirror want slices
    · rwa [writeSlice, Store.write_eq_self found _ body_eq.symm] at applied
    · exact absurd body_eq (differs held found)
  rw [foldl_fixed] at applied
  exact (Script.exec_attempt applied).trans (exec_prunes _ _ _)

end Runs

section Settling

variable {slices : Slices} {desired : List MirroredSlice} {place : Str × Str} {key : ServiceKey}

theorem find_writes_of_absent (absent : ∀ want ∈ desired, want.place ≠ place) :
    (desired.foldl writeSlice slices).find place = slices.find place := by
  induction desired generalizing slices with
  | nil => rfl
  | cons want rest ih =>
    rw [foldl_cons, ih fun other mem => absent other (mem_cons_of_mem _ mem),
      writeSlice, Store.find_write, Function.update_of_ne (absent want mem_cons_self).symm]

theorem find_writes_of_mem (distinct : (desired.map MirroredSlice.place).Nodup)
    {want : MirroredSlice} (mem : want ∈ desired) :
    (desired.foldl writeSlice slices).find want.place =
      some (.rewrite (slices.find want.place) want.body) := by
  induction desired generalizing slices with
  | nil => cases mem
  | cons first rest ih =>
    rw [map_cons, nodup_cons] at distinct
    rw [foldl_cons]
    have apart : ∀ other ∈ rest, other.place ≠ first.place := fun other in_rest same =>
      distinct.1 (same ▸ mem_map_of_mem in_rest)
    rcases mem_cons.mp mem with rfl | later
    · rw [find_writes_of_absent apart, writeSlice, Store.find_write, Function.update_self]
    · rw [ih distinct.2 later, writeSlice, Store.find_write,
        Function.update_of_ne (apart want later)]

/-- No slice of a planned name is one of others. -/
def Unclaimed (key : ServiceKey) (desired : List MirroredSlice) (slices : Slices) : Prop :=
  ∀ want ∈ desired, ∀ held, slices.find want.place = some held → MirroredFor key want.place held

/-- No finalizer holds back a slice of the import without a planned name. -/
def Prunable (key : ServiceKey) (desired : List MirroredSlice) (slices : Slices) : Prop :=
  ∀ place held, slices.find place = some held → MirroredFor key place held →
    (∀ want ∈ desired, want.place ≠ place) → held.finalizers = []

/-- The planned slices are stored, the others of the import gone, and those of others kept. -/
structure Mirrors (key : ServiceKey) (desired : List MirroredSlice) (before after : Slices) :
    Prop where
  planned : ∀ want ∈ desired,
    after.find want.place = some (.rewrite (before.find want.place) want.body)
  gone : ∀ place, (∀ want ∈ desired, want.place ≠ place) →
    (∀ held, before.find place = some held → MirroredFor key place held) → after.find place = none
  kept : ∀ place held, before.find place = some held → ¬ MirroredFor key place held →
    after.find place = some held

theorem Mirrors.exists_planned {before after : Slices} (mirrors : Mirrors key desired before after)
    {held : HeldSlice} (found : after.find place = some held) (own : MirroredFor key place held) :
    ∃ want ∈ desired, want.place = place := by
  by_contra unplanned
  have absent : ∀ want ∈ desired, want.place ≠ place :=
    fun want mem same => unplanned ⟨want, mem, same⟩
  have all_own : ∀ other, before.find place = some other → MirroredFor key place other := by
    intro other stored
    by_contra foreign
    have kept := mirrors.kept place other stored foreign
    obtain rfl := Option.some.inj (found.symm.trans kept)
    exact foreign own
  rw [mirrors.gone place absent all_own] at found
  cases found

theorem mirrors_of_written (placed : ∀ want ∈ desired, want.place = (key.namespace_, want.name))
    (distinct : (desired.map MirroredSlice.place).Nodup) (unclaimed : Unclaimed key desired slices)
    (prunable : Prunable key desired slices) {existing : List ((Str × Str) × HeldSlice)}
    (existing_iff : ∀ item, item ∈ existing ↔
      slices.find item.1 = some item.2 ∧ MirroredFor key item.1 item.2) :
    Mirrors key desired slices
      ((stalePlaces desired existing).foldl Store.delete (desired.foldl writeSlice slices)) := by
  have stale_iff : ∀ {place}, place ∈ stalePlaces desired existing ↔
      (∃ held, slices.find place = some held ∧ MirroredFor key place held) ∧
        ∀ want ∈ desired, want.place ≠ place := by
    intro place
    simp only [stalePlaces, mem_map, mem_filter, existing_iff, decide_eq_true_eq]
    constructor
    · rintro ⟨⟨_, held⟩, ⟨⟨found, own⟩, stale⟩, rfl⟩
      exact ⟨⟨held, found, own⟩, fun want mem same => stale ⟨want, mem, same ▸ rfl⟩⟩
    · rintro ⟨⟨held, found, own⟩, unplanned⟩
      refine ⟨(place, held), ⟨⟨found, own⟩, ?_⟩, rfl⟩
      rintro ⟨want, mem, name_eq⟩
      exact unplanned want mem ((placed want mem).trans (Prod.ext own.1.symm name_eq))
  refine ⟨fun want mem => ?_, fun place unplanned owned => ?_,
    fun place held found foreign => ?_⟩
  · rw [Store.find_deletes, if_neg fun stale => (stale_iff.mp stale).2 want mem rfl,
      find_writes_of_mem distinct mem]
  · rw [Store.find_deletes, find_writes_of_absent unplanned]
    cases found : slices.find place with
    | none => exact ite_self none
    | some held =>
      have own := owned held found
      rw [if_pos (stale_iff.mpr ⟨⟨held, found, own⟩, unplanned⟩), Option.bind_some,
        Held.requestDelete, dif_neg (not_not.mpr (prunable place held found own unplanned))]
  · have unplanned : ∀ want ∈ desired, want.place ≠ place := by
      rintro want mem rfl
      exact foreign (unclaimed want mem held found)
    rw [Store.find_deletes, if_neg, find_writes_of_absent unplanned, found]
    rintro stale
    obtain ⟨⟨stored, stored_found, own⟩, -⟩ := stale_iff.mp stale
    exact foreign (Option.some.inj (stored_found.symm.trans found) ▸ own)

variable {mirror : Runtime MirrorSite} {endpoints : List ExportedEndpoint} {after : Slices}

theorem exec_reconcileMirrorSlices (mirror : Runtime MirrorSite) (key : ServiceKey)
    (endpoints : List ExportedEndpoint) (slices : Slices) :
    ∃ existing, (∀ item, item ∈ existing ↔
        slices.find item.1 = some item.2 ∧ MirroredFor key item.1 item.2) ∧
      (reconcileMirrorSlices mirror key endpoints).run.exec (serveSlices mirror) slices =
        (writeMirrorSlices (planEndpointSlices mirror key.name key.namespace_ endpoints)
          existing).run.exec (serveSlices mirror) slices := by
  refine ⟨mirror.range .existing (Slices.labelled slices key.namespace_ (mirrorSelector key.name)),
    fun item => ?_, ?_⟩
  · rw [(mirror.range_perm _ _).mem_iff, mem_labelled]
    rfl
  · rw [reconcileMirrorSlices_eq]
    exact Script.exec_attempt rfl

variable (desired_eq : planEndpointSlices mirror key.name key.namespace_ endpoints = desired)

include desired_eq

theorem mirrors_of_ran (distinct : (desired.map MirroredSlice.name).Nodup)
    (unclaimed : Unclaimed key desired slices) (prunable : Prunable key desired slices)
    (ran : (reconcileMirrorSlices mirror key endpoints).run.exec (serveSlices mirror) slices =
      (.ok (), after)) : Mirrors key desired slices after := by
  subst desired_eq
  obtain ⟨existing, existing_iff, ran_eq⟩ := exec_reconcileMirrorSlices mirror key endpoints slices
  rw [exec_writeMirrorSlices_eq_ok (ran_eq.symm.trans ran)]
  refine mirrors_of_written (fun want mem => Prod.ext (labels_of_mem_plan mem).1 rfl)
    (Nodup.of_map Prod.snd ?_) unclaimed prunable existing_iff
  rwa [map_map]

/-- A run changes nothing when the slices of the import are the planned ones. -/
theorem exec_of_mirrored
    (stored : ∀ want ∈ desired, ∃ held, slices.find want.place = some held ∧ held.body = want.body)
    (planned : ∀ place held, slices.find place = some held → MirroredFor key place held →
      ∃ want ∈ desired, want.place = place) :
    (reconcileMirrorSlices mirror key endpoints).run.exec (serveSlices mirror) slices =
      (.ok (), slices) := by
  subst desired_eq
  obtain ⟨existing, existing_iff, ran_eq⟩ := exec_reconcileMirrorSlices mirror key endpoints slices
  have none_stale : stalePlaces (planEndpointSlices mirror key.name key.namespace_ endpoints)
      existing = [] := by
    rw [stalePlaces, map_eq_nil_iff, filter_eq_nil_iff]
    rintro item mem stale
    obtain ⟨found, own⟩ := (existing_iff item).mp mem
    obtain ⟨want, in_plan, same⟩ := planned item.1 item.2 found own
    exact of_decide_eq_true stale (same ▸ mem_map_of_mem in_plan)
  rw [ran_eq, exec_writeMirrorSlices_of_stored stored, none_stale]
  rfl

end Settling

end DatawerxMesh.Controllers
