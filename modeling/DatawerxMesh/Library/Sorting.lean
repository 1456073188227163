import DatawerxMesh.Library.Accumulation
import Mathlib.Data.List.Perm.Basic
import Mathlib.Data.List.Sort
import Mathlib.Data.List.TakeWhile

/-!
# Sorting by a comparison

A comparison that orders elements up to their keys sorts a list into an arrangement that does not
depend on their order of arrival.
-/

namespace Sorting

open List

variable {α β γ : Type} {items left right result : List α} {item : α} {field : α → β}

/-- A strict comparison, whose ties are the pairs with equal keys. -/
structure Orders (less : α → α → Bool) (key : α → β) : Prop where
  asymm : ∀ a b, less a b = true → less b a = false
  le_trans : ∀ a b c, less b a = false → less c b = false → less c a = false
  ties : ∀ a b, less a b = false → less b a = false → key a = key b

variable (less : α → α → Bool)

/-- Sort in the order of a comparison. -/
def sort (items : List α) : List α :=
  items.insertionSort fun a b => less b a = false

/-- Compare by one field first and leave equal fields to the next comparison. -/
def byField [DecidableEq β] (field : α → β) (less : β → β → Bool) (next : α → α → Bool)
    (a b : α) : Bool :=
  if field a ≠ field b then less (field a) (field b) else next a b

/-- A result that a sort may have: the order of ties is left open. -/
structure Arranges (less : α → α → Bool) (items result : List α) : Prop where
  perm : result.Perm items
  sorted : result.Pairwise fun a b => less b a = false

theorem sort_perm (items : List α) : (sort less items).Perm items :=
  perm_insertionSort _ items

@[simp] theorem mem_sort : item ∈ sort less items ↔ item ∈ items :=
  (sort_perm less items).mem_iff

variable {less : α → α → Bool} {key : α → β}

theorem sort_pairwise (orders : Orders less key)
    (items : List α) : (sort less items).Pairwise fun a b => less b a = false := by
  have total : Std.Total fun a b => less b a = false := by
    refine ⟨fun a b => ?_⟩
    by_cases after : less b a = false
    · exact Or.inl after
    · exact Or.inr (orders.asymm b a (by simpa using after))
  have transitive : IsTrans α fun a b => less b a = false :=
    ⟨fun a b c => orders.le_trans a b c⟩
  exact pairwise_insertionSort _ items

theorem sort_arranges (orders : Orders less key)
    (items : List α) : Arranges less items (sort less items) :=
  ⟨sort_perm less items, sort_pairwise orders items⟩

/-- Elements with their own keys have one arrangement. -/
theorem Arranges.unique (orders : Orders less key)
    {first second : List α} (own : Set.InjOn key {item | item ∈ left}) (perm : left.Perm right)
    (first_arranges : Arranges less left first) (second_arranges : Arranges less right second) :
    first = second := by
  refine Perm.eq_of_pairwise ?_ first_arranges.sorted second_arranges.sorted ?_
  · intro a b first_mem second_mem not_after not_before
    refine own (first_arranges.perm.mem_iff.mp first_mem)
      (perm.mem_iff.mpr (second_arranges.perm.mem_iff.mp second_mem)) ?_
    exact orders.ties a b not_before not_after
  · exact (first_arranges.perm.trans perm).trans second_arranges.perm.symm

theorem Arranges.strict (orders : Orders less key)
    (arranges : Arranges less items result) (own : (items.map key).Nodup) :
    result.Pairwise fun a b => less a b = true := by
  have differ := pairwise_map.mp ((arranges.perm.map key).nodup_iff.mpr own)
  refine (arranges.sorted.and differ).imp fun both => ?_
  obtain ⟨not_after, keys_ne⟩ := both
  by_contra not_before
  exact keys_ne (orders.ties _ _ (Bool.not_eq_true _ ▸ not_before) not_after)

theorem pairwise_of_forall₂ {related : α → β → Prop} {right : List β} {first : α → α → Prop}
    {second : β → β → Prop} (all : Forall₂ related left right)
    (carries : ∀ a b a' b', related a a' → related b b' → second a' b' → first a b)
    (pairs : right.Pairwise second) : left.Pairwise first := by
  induction all with
  | nil => exact Pairwise.nil
  | cons head rest ih =>
    obtain ⟨before, later⟩ := pairwise_cons.mp pairs
    refine pairwise_cons.mpr ⟨fun b mem => ?_, ih later⟩
    obtain ⟨b', member', related_b⟩ := (Accumulation.exists_of_forall₂ rest).1 b mem
    exact carries _ _ _ _ head related_b (before b' member')

theorem Arranges.shuffle (orders : Orders less key)
    (keyed : ∀ a b a' b', key a = key a' → key b = key b' → less a b = less a' b')
    {related : α → α → Prop} (keeps : ∀ a b, related a b → key a = key b) {first second : List α}
    (own : Set.InjOn key {item | item ∈ left}) (shuffled : Accumulation.Shuffle related left right)
    (first_arranges : Arranges less left first) (second_arranges : Arranges less right second) :
    Forall₂ related first second := by
  obtain ⟨middle, perm, all⟩ := shuffled
  obtain ⟨moved, flipped, moved_perm⟩ := perm_comp_forall₂ second_arranges.perm all.flip
  have related_moved : Forall₂ related moved second := flipped.flip
  have moved_arranges : Arranges less left moved := by
    refine ⟨moved_perm.trans perm.symm, pairwise_of_forall₂ related_moved ?_ second_arranges.sorted⟩
    intro a b a' b' first_related second_related sorted
    rw [keyed b a b' a' (keeps b b' second_related) (keeps a a' first_related), sorted]
  rwa [Arranges.unique orders own (Perm.refl left) first_arranges moved_arranges]

theorem Arranges.leave_out (arranges : Arranges less (item :: items) result) :
    ∃ before after, result = before ++ item :: after ∧ Arranges less items (before ++ after) ∧
      ∀ other ∈ after, less other item = false := by
  obtain ⟨before, after, rfl⟩ :=
    append_of_mem (arranges.perm.mem_iff.mpr mem_cons_self)
  refine ⟨before, after, rfl, ⟨?_, arranges.sorted.sublist ?_⟩, ?_⟩
  · exact Perm.cons_inv (perm_middle.symm.trans arranges.perm)
  · exact (sublist_cons_self item after).append_left before
  · exact (pairwise_cons.mp (pairwise_append.mp arranges.sorted).2.1).1

theorem Arranges.map_field {less : β → β → Bool}
    (arranges : Arranges (fun a b => less (field a) (field b)) items result) :
    Arranges less (items.map field) (result.map field) :=
  ⟨arranges.perm.map field, pairwise_map.mpr arranges.sorted⟩

theorem sort_eq_of_perm (orders : Orders less key)
    (key_injective : ∀ a b, key a = key b → a = b) (perm : left.Perm right) :
    sort less left = sort less right :=
  Arranges.unique orders (fun a _ b _ => key_injective a b) perm (sort_arranges orders left)
    (sort_arranges orders right)

theorem sort_eq_of_mem_iff (orders : Orders less key)
    (key_injective : ∀ a b, key a = key b → a = b) (left_nodup : left.Nodup)
    (right_nodup : right.Nodup) (same : ∀ item, item ∈ left ↔ item ∈ right) :
    sort less left = sort less right :=
  sort_eq_of_perm orders key_injective ((perm_ext_iff_of_nodup left_nodup right_nodup).mpr same)

theorem Orders.irrefl (orders : Orders less key) (a : α) :
    less a a = false := by
  cases loops : less a a with
  | false => rfl
  | true => exact loops.symm.trans (orders.asymm a a loops)

theorem find?_sort_eq_some (orders : Orders less key)
    (key_injective : ∀ a b, key a = key b → a = b) {test : α → Bool} :
    (sort less items).find? test = some item ↔
      item ∈ items ∧ test item = true ∧
        ∀ other ∈ items, test other = true → less other item = false := by
  have least : ∀ {found}, (sort less items).find? test = some found →
      found ∈ items ∧ test found = true ∧
        ∀ other ∈ items, test other = true → less other found = false := by
    intro found found_eq
    obtain ⟨matched, before, after, split, unmatched⟩ := List.find?_eq_some_iff_append.mp found_eq
    have sorted := sort_pairwise orders items
    rw [split] at sorted
    refine ⟨(mem_sort less).mp (by rw [split]; simp), matched, fun other mem other_matched => ?_⟩
    have in_split : other ∈ before ++ found :: after := by
      rw [← split]
      exact (mem_sort less).mpr mem
    rcases mem_append.mp in_split with earlier | later
    · have missed := unmatched other earlier
      rw [other_matched] at missed
      cases missed
    · rcases mem_cons.mp later with rfl | later
      · exact orders.irrefl other
      · exact (pairwise_cons.mp (pairwise_append.mp sorted).2.1).1 other later
  refine ⟨least, ?_⟩
  rintro ⟨mem, matched, minimal⟩
  have some_match : ((sort less items).find? test).isSome := by
    rw [List.find?_isSome]
    exact ⟨item, (mem_sort less).mpr mem, matched⟩
  obtain ⟨found, found_eq⟩ := Option.isSome_iff_exists.mp some_match
  obtain ⟨found_mem, found_matched, found_minimal⟩ := least found_eq
  rw [found_eq, key_injective found item (orders.ties found item
    (minimal found found_mem found_matched) (found_minimal item mem matched))]

theorem orderedInsert_before_ties (item last : α) (before after : List α)
    (greater : ∀ other ∈ after, less last other = true) :
    ∃ before' after', (before ++ last :: after).orderedInsert (fun a b => less b a = false) item =
      before' ++ last :: after' ∧ ∀ other ∈ after', less last other = true := by
  induction before with
  | nil =>
    rw [nil_append, orderedInsert_cons]
    split
    · exact ⟨[item], after, rfl, greater⟩
    · rename_i later
      refine ⟨[], _, rfl, fun other mem => ?_⟩
      rcases mem_cons.mp ((perm_orderedInsert _ _ _).mem_iff.mp mem) with rfl | mem
      · simpa using later
      · exact greater other mem
  | cons head before ih =>
    obtain ⟨before', after', inserted, greater'⟩ := ih
    rw [cons_append, orderedInsert_cons]
    split
    · exact ⟨item :: head :: before, after, rfl, greater⟩
    · exact ⟨head :: before', after', by rw [inserted, cons_append], greater'⟩

theorem sort_append_singleton (less : α → α → Bool) (items : List α) (last : α) :
    ∃ before after, sort less (items ++ [last]) = before ++ last :: after ∧
      ∀ other ∈ after, less last other = true := by
  induction items with
  | nil => exact ⟨[], [], rfl, by simp⟩
  | cons item items ih =>
    obtain ⟨before, after, sorted, greater⟩ := ih
    rw [sort, cons_append, insertionSort_cons, ← sort, sorted]
    exact orderedInsert_before_ties item last before after greater

theorem sort_cons (less : α → α → Bool) (first : α) (items : List α) :
    ∃ before after, sort less (first :: items) = before ++ first :: after ∧
      ∀ other ∈ before, less other first = true := by
  refine ⟨_, _, insertionSort_cons_eq_take_drop _ first items, fun other mem => ?_⟩
  simpa using mem_takeWhile_imp mem

theorem Orders.byField [DecidableEq β] {less : β → β → Bool} (leading : Orders less id)
    {next : α → α → Bool} {key : α → γ} (following : Orders next key) :
    Orders (byField field less next) fun a => (field a, key a) := by
  constructor
  · intro a b before
    by_cases same : field a = field b
    · rw [Sorting.byField, if_neg (by simpa using same)] at before
      rw [Sorting.byField, if_neg (by simpa using same.symm)]
      exact following.asymm a b before
    · rw [Sorting.byField, if_pos same] at before
      rw [Sorting.byField, if_pos (Ne.symm same)]
      exact leading.asymm _ _ before
  · intro a b c not_before not_after
    simp only [Sorting.byField] at not_before not_after ⊢
    by_cases ab : field a = field b
    · by_cases bc : field b = field c
      · rw [if_neg (by simpa using ab.symm)] at not_before
        rw [if_neg (by simpa using bc.symm)] at not_after
        rw [if_neg (by simpa using (ab.trans bc).symm)]
        exact following.le_trans a b c not_before not_after
      · rw [if_pos (Ne.symm bc)] at not_after
        rw [if_pos (by rw [ab]; exact Ne.symm bc), ab]
        exact not_after
    · rw [if_pos (Ne.symm ab)] at not_before
      by_cases bc : field b = field c
      · rw [if_pos (by rw [← bc]; exact Ne.symm ab), ← bc]
        exact not_before
      · rw [if_pos (Ne.symm bc)] at not_after
        have chained := leading.le_trans _ _ _ not_before not_after
        by_cases ca : field c = field a
        · rw [← ca] at not_before
          exact absurd (leading.ties _ _ not_before not_after) (by simpa using bc)
        · rw [if_pos ca]
          exact chained
  · intro a b not_before not_after
    simp only [Sorting.byField] at not_before not_after
    by_cases same : field a = field b
    · rw [if_neg (by simpa using same)] at not_before
      rw [if_neg (by simpa using same.symm)] at not_after
      rw [Prod.mk.injEq]
      exact ⟨same, following.ties a b not_before not_after⟩
    · rw [if_pos same] at not_before
      rw [if_pos (Ne.symm same)] at not_after
      exact absurd (leading.ties _ _ not_before not_after) same

theorem Orders.lt [LinearOrder α] : Orders (fun a b : α => decide (a < b)) id where
  asymm a b before := by
    rw [decide_eq_true_eq] at before
    exact decide_eq_false before.not_gt
  le_trans a b c not_before not_after := by
    rw [decide_eq_false_iff_not, not_lt] at *
    exact not_before.trans not_after
  ties a b not_before not_after := by
    rw [decide_eq_false_iff_not, not_lt] at *
    exact le_antisymm not_after not_before

theorem Orders.onField {less : β → β → Bool} (leading : Orders less id) :
    Orders (fun a b => less (field a) (field b)) field where
  asymm _ _ := leading.asymm _ _
  le_trans _ _ _ := leading.le_trans _ _ _
  ties _ _ := leading.ties _ _

end Sorting
