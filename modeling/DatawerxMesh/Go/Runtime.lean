import DatawerxMesh.Library.Sorting
import Mathlib.Data.List.Rotate

/-!
# What a run of a program is free to choose

`sort.Slice` is unstable and a map is ranged over in any order.  A runtime resolves both, at each
place of the program on its own.
-/

namespace Go

open Sorting

/-- The choices of one run at the places `σ` of a program. -/
structure Runtime (σ : Type) where
  /-- Result of `sort.Slice`. -/
  sortSlice (site : σ) {α : Type} (less : α → α → Bool) (items : List α) : List α
  /-- Order of a `range` over a map. -/
  range (site : σ) {α : Type} (keys : List α) : List α
  sortSlice_arranges (site : σ) {α β : Type} {less : α → α → Bool} {key : α → β}
    (orders : Orders less key) (items : List α) : Arranges less items (sortSlice site less items)
  range_perm (site : σ) {α : Type} (keys : List α) : (range site keys).Perm keys

namespace Runtime

variable {σ α β : Type}

/-- The runtime that sorts stably and ranges in order of insertion. -/
def stable (σ : Type) : Runtime σ where
  sortSlice _ _ less items := sort less items
  range _ _ keys := keys
  sortSlice_arranges _ _ _ _ _ orders items := sort_arranges orders items
  range_perm _ _ keys := List.Perm.refl keys

/-- The runtime that sorts stably after turning the elements at each place. -/
def turning (turn : σ → Nat) : Runtime σ where
  sortSlice site _ less items := sort less (items.rotate (turn site))
  range _ _ keys := keys
  sortSlice_arranges site _ _ _ _ orders items :=
    have arranged := sort_arranges orders (items.rotate (turn site))
    ⟨arranged.perm.trans (List.rotate_perm items (turn site)), arranged.sorted⟩
  range_perm _ _ keys := List.Perm.refl keys

theorem sortSlice_eq (left_run right_run : Runtime σ) (site : σ) {less : α → α → Bool}
    {key : α → β} (orders : Orders less key) {left right : List α}
    (own : Set.InjOn key {item | item ∈ left}) (perm : left.Perm right) :
    left_run.sortSlice site less left = right_run.sortSlice site less right :=
  Arranges.unique orders own perm (left_run.sortSlice_arranges site orders left)
    (right_run.sortSlice_arranges site orders right)

open Classical in
/-- Every arrangement is the choice of some run. -/
theorem exists_sortSlice_eq (go : Runtime σ) (site : σ) {less : α → α → Bool}
    {items result : List α} (arranges : Arranges less items result) :
    ∃ go' : Runtime σ, go'.sortSlice site less items = result ∧
      ∀ other ≠ site, @Runtime.sortSlice σ go' other = @Runtime.sortSlice σ go other := by
  let input (γ : Type) (less : γ → γ → Bool) (items : List γ) :
      (γ : Type) × (γ → γ → Bool) × List γ := ⟨γ, less, items⟩
  refine ⟨{ go with
    sortSlice := fun place γ less' items' =>
      if same : place = site ∧ input γ less' items' = input α less items then
        cast (congrArg (fun choice => List choice.1) same.2.symm) result
      else go.sortSlice place less' items'
    sortSlice_arranges := fun place γ β less' key orders items' => ?_ }, ?_, ?_⟩
  · split
    case isTrue same =>
      obtain ⟨-, same⟩ := same
      cases same
      exact arranges
    case isFalse => exact go.sortSlice_arranges place orders items'
  · exact dif_pos ⟨rfl, rfl⟩
  · intro other differs
    funext γ less' items'
    exact dif_neg fun same => differs same.1

end Runtime

end Go
