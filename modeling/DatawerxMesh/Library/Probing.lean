import Mathlib.Data.Finset.Card
import Mathlib.Data.List.AList

/-!
# Open addressing

Each key takes the first of its candidate cells that no earlier key has taken.
-/

namespace Probing

open List

variable {κ α β : Type}

section Cells

variable [DecidableEq α] [DecidableEq β]

/-- The first candidate that is not taken. -/
def firstFree (used candidates : List α) : Option α := candidates.find? (· ∉ used)

/-- The cells that keys take in the given order, unless one finds all its candidates taken. -/
def place (candidates : κ → List α) : List α → List κ → Option (List (κ × α))
  | _, [] => some []
  | used, key :: keys => do
      let cell ← firstFree used (candidates key)
      let placed ← place candidates (cell :: used) keys
      return (key, cell) :: placed

theorem firstFree_eq_some {used candidates : List α} {cell : α} :
    firstFree used candidates = some cell ↔
      cell ∉ used ∧ ∃ before after, candidates = before ++ cell :: after ∧
        ∀ other ∈ before, other ∈ used := by
  simp [firstFree, List.find?_eq_some_iff_append]

theorem firstFree_extend {used used' candidates candidates' : List α} {cell : α}
    (free : firstFree used candidates = some cell) (longer : candidates <+: candidates')
    (grown : ∀ other ∈ used, other ∈ used') (still_free : cell ∉ used') :
    firstFree used' candidates' = some cell := by
  obtain ⟨-, before, after, rfl, taken⟩ := firstFree_eq_some.mp free
  obtain ⟨more, rfl⟩ := longer
  refine firstFree_eq_some.mpr ⟨still_free, before, after ++ more, by simp, fun other mem => ?_⟩
  exact grown other (taken other mem)

/-- The number of different candidates is the number of taken cells that a key is sure to evade. -/
theorem le_card_iff {candidates : List α} {count : Nat} :
    count ≤ candidates.toFinset.card ↔
      ∀ used : List α, used.length < count → ∃ cell, firstFree used candidates = some cell := by
  constructor
  · intro enough used few
    cases free : firstFree used candidates with
    | some cell => exact ⟨cell, rfl⟩
    | none =>
      have taken : candidates.toFinset ⊆ used.toFinset := by
        intro cell mem
        simpa [firstFree] using List.find?_eq_none.mp free cell (mem_toFinset.mp mem)
      have bound := (Finset.card_le_card taken).trans (toFinset_card_le used)
      omega
  · intro evades
    by_contra few
    obtain ⟨cell, free⟩ := evades candidates.dedup (by
      rw [← card_toFinset]
      omega)
    obtain ⟨untaken, before, after, split, -⟩ := firstFree_eq_some.mp free
    exact untaken (mem_dedup.mpr (by simp [split]))

section Placements

variable {candidates candidates' : κ → List α} {used used' : List α} {keys : List κ}
  {placed : List (κ × α)}

theorem place_cons_eq_some {key : κ} :
    place candidates used (key :: keys) = some placed ↔
      ∃ cell rest, firstFree used (candidates key) = some cell ∧
        place candidates (cell :: used) keys = some rest ∧ placed = (key, cell) :: rest := by
  simp only [place, Option.bind_eq_bind, Option.bind_eq_some_iff, Option.pure_def,
    Option.some.injEq]
  constructor
  · rintro ⟨cell, free, rest, rest_eq, rfl⟩
    exact ⟨cell, rest, free, rest_eq, rfl⟩
  · rintro ⟨cell, rest, free, rest_eq, rfl⟩
    exact ⟨cell, free, rest, rest_eq, rfl⟩

theorem exists_place_cons {key : κ} {cell : α} (free : firstFree used (candidates key) = some cell)
    {holds : List (κ × α) → Prop} :
    (∃ placed, place candidates used (key :: keys) = some placed ∧ holds placed) ↔
      ∃ rest, place candidates (cell :: used) keys = some rest ∧ holds ((key, cell) :: rest) := by
  simp [place, free, Option.bind_eq_some_iff]

theorem exists_place_of_card (enough : ∀ key ∈ keys,
    used.length + keys.length ≤ (candidates key).toFinset.card) :
    ∃ placed, place candidates used keys = some placed := by
  induction keys generalizing used with
  | nil => exact ⟨[], rfl⟩
  | cons key keys ih =>
    have room := enough key mem_cons_self
    rw [length_cons, ← Nat.add_assoc] at room
    obtain ⟨cell, free⟩ := le_card_iff.mp room used (by omega)
    obtain ⟨placed, placed_eq⟩ : ∃ placed, place candidates (cell :: used) keys = some placed := by
      refine ih fun other mem => ?_
      have later := enough other (mem_cons_of_mem _ mem)
      rw [length_cons] at later ⊢
      omega
    exact ⟨_, place_cons_eq_some.mpr ⟨cell, placed, free, placed_eq, rfl⟩⟩

section

variable (success : place candidates used keys = some placed)

include success

theorem keys_of_place : placed.map Prod.fst = keys := by
  induction keys generalizing used placed with
  | nil =>
    obtain rfl := Option.some.inj success
    rfl
  | cons key keys ih =>
    obtain ⟨cell, rest, -, rest_eq, rfl⟩ := place_cons_eq_some.mp success
    rw [map_cons, ih rest_eq]

theorem mem_of_place {entry : κ × α}
    (mem : entry ∈ placed) : entry.2 ∈ candidates entry.1 ∧ entry.2 ∉ used := by
  induction keys generalizing used placed with
  | nil =>
    obtain rfl := Option.some.inj success
    cases mem
  | cons key keys ih =>
    obtain ⟨cell, rest, free, rest_eq, rfl⟩ := place_cons_eq_some.mp success
    rcases mem_cons.mp mem with rfl | later
    · obtain ⟨fresh, before, after, candidates_eq, -⟩ := firstFree_eq_some.mp free
      exact ⟨by simp [candidates_eq], fresh⟩
    · obtain ⟨is_candidate, fresh⟩ := ih rest_eq later
      exact ⟨is_candidate, fun taken => fresh (mem_cons_of_mem _ taken)⟩

theorem nodup_of_place : (placed.map Prod.snd).Nodup := by
  induction keys generalizing used placed with
  | nil =>
    obtain rfl := Option.some.inj success
    exact nodup_nil
  | cons key keys ih =>
    obtain ⟨cell, rest, -, rest_eq, rfl⟩ := place_cons_eq_some.mp success
    refine nodup_cons.mpr ⟨fun again => ?_, ih rest_eq⟩
    obtain ⟨entry, mem, same⟩ := mem_map.mp again
    exact (mem_of_place rest_eq mem).2 (by simp [same])

end

theorem place_append_eq_some {more : List κ} :
    place candidates used (keys ++ more) = some placed ↔
      ∃ first second, place candidates used keys = some first ∧
        place candidates ((first.map Prod.snd).reverse ++ used) more = some second ∧
        placed = first ++ second := by
  induction keys generalizing used placed with
  | nil => simp [place]
  | cons key keys ih =>
    rw [cons_append]
    simp only [place_cons_eq_some, ih]
    constructor
    · rintro ⟨cell, _, free, ⟨first, second, first_eq, second_eq, rfl⟩, rfl⟩
      refine ⟨(key, cell) :: first, second, ⟨cell, first, free, first_eq, rfl⟩, ?_, rfl⟩
      simpa using second_eq
    · rintro ⟨_, second, ⟨cell, first, free, first_eq, rfl⟩, second_eq, rfl⟩
      refine ⟨cell, first ++ second, free, ⟨first, second, first_eq, ?_, rfl⟩, rfl⟩
      simpa using second_eq

/-- A placement survives more candidates at the end and taken cells that it does not use. -/
theorem place_extend (success : place candidates used keys = some placed)
    (longer : ∀ key ∈ keys, candidates key <+: candidates' key)
    (grown : ∀ cell ∈ used, cell ∈ used') (unused : ∀ entry ∈ placed, entry.2 ∉ used') :
    place candidates' used' keys = some placed := by
  induction keys generalizing used used' placed with
  | nil => exact success
  | cons key keys ih =>
    have nodup := nodup_of_place success
    obtain ⟨cell, rest, free, rest_eq, rfl⟩ := place_cons_eq_some.mp success
    have free' := firstFree_extend free (longer key mem_cons_self) grown
      (unused (key, cell) mem_cons_self)
    refine place_cons_eq_some.mpr ⟨cell, rest, free', ih rest_eq ?_ ?_ ?_, rfl⟩
    · exact fun other mem => longer other (mem_cons_of_mem _ mem)
    · intro other mem
      rcases mem_cons.mp mem with rfl | earlier
      · exact mem_cons_self
      · exact mem_cons_of_mem _ (grown other earlier)
    · intro entry mem taken
      rcases mem_cons.mp taken with same | earlier
      · rw [map_cons, nodup_cons] at nodup
        exact nodup.1 (mem_map.mpr ⟨entry, mem, same⟩)
      · exact unused entry (mem_cons_of_mem _ mem) earlier

end Placements

/-- The keys in front keep their cells; if the new cell was free, all keys do. -/
theorem place_insert {candidates candidates' : κ → List α} {before after : List κ} {key : κ}
    {old new : List (κ × α)} (longer : ∀ key, candidates key <+: candidates' key)
    (old_eq : place candidates [] (before ++ after) = some old)
    (new_eq : place candidates' [] (before ++ key :: after) = some new) :
    ∃ first second second' cell, old = first ++ second ∧ new = first ++ (key, cell) :: second' ∧
      first.map Prod.fst = before ∧ (cell ∉ old.map Prod.snd → second' = second) := by
  obtain ⟨first, second, first_eq, second_eq, rfl⟩ := place_append_eq_some.mp old_eq
  obtain ⟨first', _, first'_eq, rest_eq, rfl⟩ := place_append_eq_some.mp new_eq
  obtain ⟨cell, second', -, second'_eq, rfl⟩ := place_cons_eq_some.mp rest_eq
  have kept : place candidates' [] before = some first :=
    place_extend first_eq (fun other _ => longer other) (by simp) (by simp)
  obtain rfl := Option.some.inj (kept.symm.trans first'_eq)
  refine ⟨first, second, second', cell, rfl, rfl, keys_of_place first_eq, fun apart => ?_⟩
  have moved : place candidates' (cell :: ((first.map Prod.snd).reverse ++ [])) after =
      some second := by
    refine place_extend second_eq (fun other _ => longer other)
      (fun other mem => mem_cons_of_mem _ mem) fun entry mem taken => ?_
    rcases mem_cons.mp taken with rfl | earlier
    · exact apart (mem_map_of_mem (mem_append_right _ mem))
    · exact (mem_of_place second_eq mem).2 earlier
  exact Option.some.inj (second'_eq.symm.trans moved)

theorem firstFree_map {rename : α → β} {cells : Set α} (injective : Set.InjOn rename cells)
    {used candidates : List α} (used_inside : ∀ cell ∈ used, cell ∈ cells)
    (inside : ∀ cell ∈ candidates, cell ∈ cells) :
    firstFree (used.map rename) (candidates.map rename) =
      (firstFree used candidates).map rename := by
  induction candidates with
  | nil => rfl
  | cons cell candidates ih =>
    have taken_iff : rename cell ∈ used.map rename ↔ cell ∈ used := by
      refine ⟨fun taken => ?_, mem_map_of_mem⟩
      obtain ⟨other, other_mem, same⟩ := mem_map.mp taken
      rw [← injective (used_inside other other_mem) (inside cell mem_cons_self) same]
      exact other_mem
    have later := ih fun other mem => inside other (mem_cons_of_mem _ mem)
    simp only [firstFree] at later ⊢
    rw [map_cons, List.find?_cons, later]
    by_cases taken : cell ∈ used <;> simp [taken_iff, taken]

/-- A placement that fails in one naming of the cells fails in another. -/
theorem place_map_eq_none {rename : α → β} {cells : Set α} (injective : Set.InjOn rename cells)
    {candidates : κ → List α} {renamed : κ → List β} {keys : List κ}
    (inside : ∀ key ∈ keys, ∀ cell ∈ candidates key, cell ∈ cells)
    (renamed_eq : ∀ key ∈ keys, renamed key = (candidates key).map rename) {used : List α}
    (used_inside : ∀ cell ∈ used, cell ∈ cells) (fails : place candidates used keys = none) :
    place renamed (used.map rename) keys = none := by
  induction keys generalizing used with
  | nil => cases fails
  | cons key keys ih =>
    have free_map := firstFree_map injective used_inside (inside key mem_cons_self)
    simp only [place, renamed_eq key mem_cons_self, free_map] at fails ⊢
    cases free : firstFree used (candidates key) with
    | none => rfl
    | some cell =>
      have candidate : cell ∈ candidates key := by
        obtain ⟨-, before, after, split, -⟩ := firstFree_eq_some.mp free
        simp [split]
      have rest : place candidates (cell :: used) keys = none := by
        cases later : place candidates (cell :: used) keys with
        | none => rfl
        | some placed => simp [free, later] at fails
      have renamed_rest := ih (fun other mem => inside other (mem_cons_of_mem _ mem))
        (fun other mem => renamed_eq other (mem_cons_of_mem _ mem))
        (forall_mem_cons.mpr ⟨inside key mem_cons_self cell candidate, used_inside⟩) rest
      rw [map_cons] at renamed_rest
      simp [renamed_rest]

end Cells

section Maps

variable [DecidableEq κ]

/-- Record a placement in a map. -/
def fill (map : AList fun _ : κ => α) (placed : List (κ × α)) : AList fun _ : κ => α :=
  placed.foldl (fun map entry => map.insert entry.1 entry.2) map

variable {placed : List (κ × α)}

theorem lookup_fill_of_not_mem {map : AList fun _ : κ => α} {key : κ}
    (absent : key ∉ placed.map Prod.fst) : (fill map placed).lookup key = map.lookup key := by
  induction placed generalizing map with
  | nil => rfl
  | cons entry placed ih =>
    rw [map_cons, mem_cons, not_or] at absent
    rw [fill, foldl_cons, ← fill, ih absent.2, AList.lookup_insert_ne absent.1]

theorem lookup_fill_of_mem {map : AList fun _ : κ => α}
    (nodup : (placed.map Prod.fst).Nodup) {entry : κ × α} (mem : entry ∈ placed) :
    (fill map placed).lookup entry.1 = some entry.2 := by
  induction placed generalizing map with
  | nil => cases mem
  | cons first placed ih =>
    rw [map_cons, nodup_cons] at nodup
    rw [fill, foldl_cons, ← fill]
    rcases mem_cons.mp mem with rfl | later
    · rw [lookup_fill_of_not_mem nodup.1, AList.lookup_insert]
    · exact ih nodup.2 later

theorem lookup_fill_eq_some (nodup : (placed.map Prod.fst).Nodup) {key : κ}
    {cell : α} : (fill ∅ placed).lookup key = some cell ↔ (key, cell) ∈ placed := by
  refine ⟨fun found => ?_, fun mem => lookup_fill_of_mem nodup mem⟩
  by_cases present : key ∈ placed.map Prod.fst
  · obtain ⟨entry, mem, rfl⟩ := mem_map.mp present
    have same := found.symm.trans (lookup_fill_of_mem nodup mem)
    rw [Option.some.inj same]
    exact mem
  · rw [lookup_fill_of_not_mem present] at found
    cases found

theorem mem_fill (nodup : (placed.map Prod.fst).Nodup) {key : κ} :
    key ∈ fill ∅ placed ↔ key ∈ placed.map Prod.fst := by
  rw [← AList.lookup_isSome, Option.isSome_iff_exists, mem_map]
  simp only [lookup_fill_eq_some nodup, Prod.exists]
  exact ⟨fun ⟨cell, mem⟩ => ⟨key, cell, mem, rfl⟩,
    fun ⟨_, cell, mem, same⟩ => ⟨cell, same ▸ mem⟩⟩

/-- The keys in front keep their cells; if the new cell was free, all keys do. -/
theorem lookup_fill_insert [DecidableEq α] {candidates candidates' : κ → List α}
    {before after : List κ} {added : κ} {old new : List (κ × α)}
    (distinct : (before ++ added :: after).Nodup)
    (longer : ∀ key, candidates key <+: candidates' key)
    (old_eq : place candidates [] (before ++ after) = some old)
    (new_eq : place candidates' [] (before ++ added :: after) = some new) :
    (∀ key ∈ before, (fill ∅ new).lookup key = (fill ∅ old).lookup key) ∧
    ((∀ key ∈ before ++ after, (fill ∅ old).lookup key ≠ (fill ∅ new).lookup added) →
      ∀ key ∈ before ++ after, (fill ∅ new).lookup key = (fill ∅ old).lookup key) := by
  have old_keys := keys_of_place old_eq
  have old_nodup : (old.map Prod.fst).Nodup := by
    rw [old_keys]
    exact (nodup_middle.mp distinct).of_cons
  have new_nodup : (new.map Prod.fst).Nodup := by
    rw [keys_of_place new_eq]
    exact distinct
  have kept : ∀ entry ∈ old, entry ∈ new →
      (fill ∅ new).lookup entry.1 = (fill ∅ old).lookup entry.1 := fun entry in_old in_new =>
    (lookup_fill_of_mem new_nodup in_new).trans (lookup_fill_of_mem old_nodup in_old).symm
  obtain ⟨first, second, second', cell, rfl, rfl, first_keys, unmoved⟩ :=
    place_insert longer old_eq new_eq
  constructor
  · intro key mem
    rw [← first_keys] at mem
    obtain ⟨entry, entry_mem, rfl⟩ := mem_map.mp mem
    exact kept entry (mem_append_left _ entry_mem) (mem_append_left _ entry_mem)
  · intro apart key mem
    have second_eq : second' = second := by
      refine unmoved fun taken => ?_
      obtain ⟨entry, entry_mem, rfl⟩ := mem_map.mp taken
      refine apart entry.1 (old_keys ▸ mem_map_of_mem entry_mem) ?_
      rw [lookup_fill_of_mem old_nodup entry_mem]
      exact (lookup_fill_of_mem new_nodup (mem_append_right first mem_cons_self)).symm
    subst second_eq
    rw [← old_keys] at mem
    obtain ⟨entry, entry_mem, rfl⟩ := mem_map.mp mem
    refine kept entry entry_mem ?_
    rcases mem_append.mp entry_mem with in_first | in_second
    · exact mem_append_left _ in_first
    · exact mem_append_right _ (mem_cons_of_mem _ in_second)

end Maps

end Probing
