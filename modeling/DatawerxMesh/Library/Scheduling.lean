import DatawerxMesh.Library.Accumulation
import Mathlib.Data.List.Basic
import Mathlib.Data.List.Induction

/-!
# Schedules of parties

Steps rebuild the cells they own and leave all others alone, so a cell holds what the last step that
owns it has written.  Parties register in front of a list when they first run, and the first
registered one with a decision decides.
-/

namespace Rebuilding

variable {ι κ ν : Type} (owns : ι → κ → Bool)

/-- The last step that owns a cell. -/
def lastOwner (steps : List ι) (cell : κ) : Option ι :=
  steps.reverse.find? fun step => owns step cell

variable {owns}

theorem lastOwner_append_own {steps : List ι} {step : ι} {cell : κ} (own : owns step cell = true) :
    lastOwner owns (steps ++ [step]) cell = some step := by
  simp [lastOwner, own]

theorem lastOwner_append_other {steps : List ι} {step : ι} {cell : κ}
    (other : owns step cell = false) :
    lastOwner owns (steps ++ [step]) cell = lastOwner owns steps cell := by
  simp [lastOwner, other]

variable (owns) in
/-- What a cell holds after a run: what its last owner has written, or what it held at first. -/
def content (write : ι → κ → ν) (initial : κ → ν) (steps : List ι) (cell : κ) : ν :=
  (lastOwner owns steps cell).elim (initial cell) fun step => write step cell

variable {write : ι → κ → ν} {initial : κ → ν} {steps : List ι} {step : ι} {cell : κ}

theorem content_append_own (own : owns step cell = true) :
    content owns write initial (steps ++ [step]) cell = write step cell := by
  rw [content, lastOwner_append_own own]
  rfl

theorem content_append_other (other : owns step cell = false) :
    content owns write initial (steps ++ [step]) cell = content owns write initial steps cell := by
  rw [content, lastOwner_append_other other]
  rfl

end Rebuilding

namespace Scheduling

open List

variable {α β : Type} [DecidableEq α]

/-- A new party goes in front. -/
def register (order : List α) (party : α) : List α :=
  if party ∈ order then order else party :: order

/-- The registered parties after a schedule. -/
def firstRuns (schedule : List α) : List α := schedule.foldl register []

theorem firstRuns_append_singleton (schedule : List α) (party : α) :
    firstRuns (schedule ++ [party]) = register (firstRuns schedule) party :=
  foldl_append

theorem mem_register {order : List α} {party other : α} :
    other ∈ register order party ↔ other ∈ order ∨ other = party :=
  Accumulation.mem_add_absent (fun _ => by rw [mem_cons, or_comm]) other

theorem nodup_register {order : List α} (nodup : order.Nodup) (party : α) :
    (register order party).Nodup := by
  rw [register]
  split
  · exact nodup
  case isFalse absent => exact nodup_cons.mpr ⟨absent, nodup⟩

theorem register_map_append {name : α → β} [DecidableEq β] (injective : Function.Injective name)
    {old : List β} {party : α} (absent : name party ∉ old) (order : List α) :
    register (order.map name ++ old) (name party) = (register order party).map name ++ old := by
  have mem_iff : name party ∈ order.map name ++ old ↔ party ∈ order := by
    rw [mem_append, or_iff_left absent, mem_map_of_injective injective]
  by_cases present : party ∈ order
  · rw [register, register, if_pos present, if_pos (mem_iff.mpr present)]
  · rw [register, register, if_neg present, if_neg (mem_iff.not.mpr present)]
    rfl

theorem mem_firstRuns {schedule : List α} {party : α} :
    party ∈ firstRuns schedule ↔ party ∈ schedule := by
  induction schedule using List.reverseRecOn with
  | nil => rfl
  | append_singleton schedule last ih =>
    rw [firstRuns_append_singleton, mem_register, ih, mem_append, mem_singleton]

theorem findSome?_congr {γ : Type} {items : List γ} {first second : γ → Option β}
    (same : ∀ item ∈ items, first item = second item) :
    items.findSome? first = items.findSome? second := by
  induction items with
  | nil => rfl
  | cons item items ih =>
    rw [List.findSome?_cons, List.findSome?_cons, same item mem_cons_self,
      ih fun other mem => same other (mem_cons_of_mem _ mem)]

/-- Any two parties with a decision have the same one. -/
def Agree (decision : α → Option β) : Prop :=
  ∀ left right first second, decision left = some first → decision right = some second →
    first = second

/-- Parties that agree decide alike under any two schedules. -/
theorem Agree.findSome?_eq {decision : α → Option β} (agree : Agree decision)
    {left right : List α} (left_all : ∀ party, party ∈ left) (right_all : ∀ party, party ∈ right) :
    (firstRuns left).findSome? decision = (firstRuns right).findSome? decision := by
  cases left_eq : (firstRuns left).findSome? decision with
  | none =>
    symm
    rw [List.findSome?_eq_none_iff] at left_eq ⊢
    exact fun party _ => left_eq party (mem_firstRuns.mpr (left_all party))
  | some first =>
    obtain ⟨party, -, decided⟩ := exists_of_findSome?_eq_some left_eq
    cases right_eq : (firstRuns right).findSome? decision with
    | none =>
      have undecided := List.findSome?_eq_none_iff.mp right_eq party
        (mem_firstRuns.mpr (right_all party))
      rw [decided] at undecided
      cases undecided
    | some second =>
      obtain ⟨other, -, other_decided⟩ := exists_of_findSome?_eq_some right_eq
      rw [agree party other first second decided other_decided]

/-- A schedule in which the given party runs first at the very end. -/
def lastTo (parties : List α) (party : α) : List α :=
  parties.filter (fun other => other ≠ party) ++ [party]

theorem mem_lastTo {parties : List α} (all : ∀ party, party ∈ parties) (last party : α) :
    party ∈ lastTo parties last := by
  by_cases same : party = last <;> simp [lastTo, same, all]

theorem findSome?_lastTo (parties : List α) (last : α) {decision : α → Option β} {value : β}
    (decided : decision last = some value) :
    (firstRuns (lastTo parties last)).findSome? decision = some value := by
  have fresh : last ∉ firstRuns (parties.filter fun other => other ≠ last) := by
    rw [mem_firstRuns]
    simp
  rw [lastTo, firstRuns_append_singleton, register, if_neg fresh, List.findSome?_cons, decided]

end Scheduling
