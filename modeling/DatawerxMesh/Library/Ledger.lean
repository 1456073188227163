import Mathlib.Data.List.AList
import Mathlib.Data.Set.Basic
import Mathlib.Tactic.Common

/-!
# Shared sets and their books

Several owners put entries into one set, with a book for each of them.  The set agrees with the
books after a replacement exactly if no other owner still wants what was withdrawn.
-/

namespace Ledger

section Recorded

variable {κ α : Type} [DecidableEq κ] (entries : AList fun _ : κ => List α)

/-- The entries of an owner; one that is not listed has none. -/
def recorded (owner : κ) : List α :=
  (entries.lookup owner).getD []

theorem recorded_insert (owner : κ) (own : List α) :
    recorded (entries.insert owner own) = Function.update (recorded entries) owner own := by
  funext other
  by_cases same : other = owner
  · subst same
    simp [recorded]
  · simp [recorded, AList.lookup_insert_ne same, same]

theorem recorded_erase (owner : κ) :
    recorded (entries.erase owner) = Function.update (recorded entries) owner [] := by
  funext other
  by_cases same : other = owner
  · subst same
    simp [recorded]
  · simp [recorded, AList.lookup_erase_ne same, same]

end Recorded

/-- A set with a record of the entries of every owner. -/
@[ext]
structure Book (κ α : Type) where
  installed : Set α
  recorded : κ → List α

namespace Book

variable {κ α : Type} (book : Book κ α)

/-- The set is the union of the records. -/
def Balanced : Prop :=
  ∀ entry, entry ∈ book.installed ↔ ∃ owner, entry ∈ book.recorded owner

/-- Entries are installed. -/
def install (entries : List α) : Book κ α :=
  { book with installed := {entry | entry ∈ book.installed ∨ entry ∈ entries} }

/-- Take entries away, whoever asked for them. -/
def withdraw (entries : List α) : Book κ α :=
  { book with installed := {entry | entry ∈ book.installed ∧ entry ∉ entries} }

/-- The entries of an owner become the given ones, and the other old ones are withdrawn. -/
def assign [DecidableEq κ] (book : Book κ α) (owner : κ) (entries : List α) : Book κ α where
  installed := {entry | entry ∈ entries ∨ entry ∈ book.installed ∧ entry ∉ book.recorded owner}
  recorded := Function.update book.recorded owner entries

/-- What an owner gives up is recorded for no other owner. -/
def Exclusive (owner : κ) (entries : List α) : Prop :=
  ∀ entry ∈ book.recorded owner, entry ∉ entries → ∀ other ≠ owner, entry ∉ book.recorded other

/-- The book stays balanced exactly if the owner gives up nothing that another one has. -/
theorem balanced_assign_iff [DecidableEq κ] {book : Book κ α} (balanced : book.Balanced)
    (owner : κ) (entries : List α) :
    (book.assign owner entries).Balanced ↔ book.Exclusive owner entries := by
  have recorded_iff : ∀ entry, (∃ other, entry ∈ (book.assign owner entries).recorded other) ↔
      entry ∈ entries ∨ ∃ other ≠ owner, entry ∈ book.recorded other := by
    intro entry
    constructor
    · rintro ⟨other, mem⟩
      by_cases same : other = owner
      · subst same
        exact .inl (by simpa [assign] using mem)
      · exact .inr ⟨other, same, by simpa [assign, same] using mem⟩
    · rintro (mem | ⟨other, differs, mem⟩)
      · exact ⟨owner, by simpa [assign] using mem⟩
      · exact ⟨other, by simpa [assign, differs] using mem⟩
  constructor
  · intro after entry old dropped other differs mem
    have kept := (after entry).mpr ((recorded_iff entry).mpr (.inr ⟨other, differs, mem⟩))
    rcases kept with added | ⟨_, not_old⟩
    · exact dropped added
    · exact not_old old
  · intro exclusive entry
    rw [recorded_iff]
    constructor
    · rintro (added | ⟨present, not_old⟩)
      · exact .inl added
      · obtain ⟨other, mem⟩ := (balanced entry).mp present
        exact .inr ⟨other, fun same => not_old (same ▸ mem), mem⟩
    · rintro (added | ⟨other, differs, mem⟩)
      · exact .inl added
      · by_cases added : entry ∈ entries
        · exact .inl added
        · refine .inr ⟨(balanced entry).mpr ⟨other, mem⟩, fun old => ?_⟩
          exact exclusive entry old added other differs mem

/-- Replacing is adding the new entries, withdrawing the other old ones, and recording. -/
theorem assign_eq [DecidableEq κ] [DecidableEq α] (book : Book κ α) (owner : κ) (entries : List α) :
    book.assign owner entries = { ((book.install entries).withdraw
          ((book.recorded owner).filter fun entry => entry ∉ entries)) with
        recorded := Function.update book.recorded owner entries } := by
  refine Book.ext (Set.ext fun entry => ?_) rfl
  simp only [assign, install, withdraw]
  by_cases added : entry ∈ entries <;> simp [added]

end Book

/-- A step of a run, with the states around it. -/
structure Step (σ κ : Type) where
  before : σ
  label : κ
  after : σ

/-- Consecutive steps from a state. -/
inductive History {σ κ : Type} (step : σ → κ → σ → Prop) : σ → List (Step σ κ) → Prop
  | nil (state : σ) : History step state []
  | cons {before after : σ} {label : κ} {later : List (Step σ κ)} (taken : step before label after)
      (rest : History step after later) : History step before (⟨before, label, after⟩ :: later)

/-- If each step keeps an invariant exactly under its condition, so do all states of a history. -/
theorem History.invariant_iff {σ κ : Type} {step : σ → κ → σ → Prop} (invariant : σ → Prop)
    (condition : σ → κ → Prop)
    (step_iff : ∀ before label after, step before label after → invariant before →
      (invariant after ↔ condition before label))
    {start : σ} (holds : invariant start) {steps : List (Step σ κ)}
    (history : History step start steps) :
    (∀ s ∈ steps, invariant s.after) ↔ ∀ s ∈ steps, condition s.before s.label := by
  induction history with
  | nil state => simp
  | cons taken rest ih =>
    have here := step_iff _ _ _ taken holds
    simp only [List.forall_mem_cons]
    constructor
    · rintro ⟨after_holds, later⟩
      exact ⟨here.mp after_holds, (ih after_holds).mp later⟩
    · rintro ⟨meets, later⟩
      exact ⟨here.mpr meets, (ih (here.mpr meets)).mpr later⟩

end Ledger
