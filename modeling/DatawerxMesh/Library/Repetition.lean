import DatawerxMesh.Library.Accumulation
import Mathlib.Data.List.Nodup
import Mathlib.Data.List.Perm.Basic

/-!
# Items that repeat a key

A loop that reports an item whose key it has seen before reports the repetitions of keys, each with
the first item of its key.
-/

namespace Accumulation

open List

variable {α β : Type} [DecidableEq β] (key : α → β)

/-- The items whose key an earlier item has, each with the first such item. -/
def repeats : List α → List (α × α)
  | [] => []
  | first :: rest =>
    (rest.filter fun item => key item = key first).map (fun item => (item, first)) ++
      (repeats rest).filter fun pair => key pair.1 ≠ key first

variable {items : List α}

theorem mem_repeats {pair : α × α} (mem : pair ∈ repeats key items) :
    pair.1 ∈ items ∧ pair.2 ∈ items ∧ key pair.1 = key pair.2 := by
  induction items with
  | nil => cases mem
  | cons first rest ih =>
    rcases mem_append.mp mem with repeated | other
    · obtain ⟨item, listed, rfl⟩ := mem_map.mp repeated
      obtain ⟨in_rest, same⟩ := mem_filter.mp listed
      exact ⟨mem_cons_of_mem _ in_rest, mem_cons_self, of_decide_eq_true same⟩
    · obtain ⟨in_rest, second_in_rest, same⟩ := ih (mem_filter.mp other).1
      exact ⟨mem_cons_of_mem _ in_rest, mem_cons_of_mem _ second_in_rest, same⟩

theorem repeats_append_singleton (items : List α) (last : α) :
    (repeats key (items ++ [last])).Perm (repeats key items ++
      ((items.find? fun item => key item = key last).map fun first => (last, first)).toList) := by
  induction items with
  | nil => exact .refl _
  | cons first rest ih =>
    rw [cons_append, repeats, repeats, filter_append, map_append]
    refine ((ih.filter _).append_left _).trans ?_
    rw [filter_append]
    by_cases same : key last = key first
    · have dropped : (((rest.find? fun item => key item = key last).map
          fun first => (last, first)).toList.filter fun pair => key pair.1 ≠ key first) = [] := by
        rw [filter_eq_nil_iff]
        intro pair mem
        obtain ⟨found, -, rfl⟩ := Option.map_eq_some_iff.mp (Option.mem_toList.mp mem)
        simp [same]
      rw [dropped, append_nil, List.find?_cons_of_pos (by simp [same])]
      simp only [same, decide_true, filter_cons_of_pos, append_assoc]
      exact perm_append_comm.append_left _
    · have kept : (((rest.find? fun item => key item = key last).map
          fun first => (last, first)).toList.filter fun pair => key pair.1 ≠ key first) =
          ((rest.find? fun item => key item = key last).map
            fun first => (last, first)).toList := by
        rw [filter_eq_self]
        intro pair mem
        obtain ⟨found, -, rfl⟩ := Option.map_eq_some_iff.mp (Option.mem_toList.mp mem)
        simp [same]
      rw [kept, List.find?_cons_of_neg (by simp [Ne.symm same])]
      simp [same]

theorem firstOf_append_repeats (items : List α) :
    (firstOf key items ++ (repeats key items).map Prod.fst).Perm items := by
  induction items with
  | nil => exact .refl _
  | cons first rest ih =>
    rw [firstOf, repeats, cons_append, perm_cons, map_append, map_map]
    have others := ih.filter fun item => !decide (key item = key first)
    rw [filter_append, filter_map] at others
    have regrouped := (others.append_left (rest.filter fun item => key item = key first)).trans
      (filter_append_perm _ rest)
    simp only [Function.comp_def, map_id', decide_not] at regrouped ⊢
    rw [← append_assoc] at regrouped ⊢
    exact (perm_append_comm.append_right _).trans regrouped

variable {key}

theorem mem_map_firstOf {entry : β} :
    entry ∈ (firstOf key items).map key ↔ entry ∈ items.map key := by
  induction items with
  | nil => rfl
  | cons first rest ih =>
    have later : entry ∈ ((firstOf key rest).filter fun other => key other ≠ key first).map key ↔
        entry ∈ (firstOf key rest).map key ∧ entry ≠ key first := by
      simp only [mem_map, mem_filter, decide_eq_true_eq]
      constructor
      · rintro ⟨item, ⟨mem, differs⟩, rfl⟩
        exact ⟨⟨item, mem, rfl⟩, differs⟩
      · rintro ⟨⟨item, mem, rfl⟩, differs⟩
        exact ⟨item, ⟨mem, differs⟩, rfl⟩
    rw [firstOf, map_cons, map_cons, mem_cons, mem_cons]
    tauto

theorem nodup_map_firstOf (items : List α) : ((firstOf key items).map key).Nodup := by
  induction items with
  | nil => exact nodup_nil
  | cons first rest ih =>
    rw [firstOf, map_cons, nodup_cons]
    refine ⟨fun again => ?_, ih.sublist (filter_sublist.map key)⟩
    obtain ⟨item, mem, same⟩ := mem_map.mp again
    exact of_decide_eq_true (mem_filter.mp mem).2 same

variable {γ : Type} {value : α → γ}

theorem mem_of_mem_firstOf {item : α} (mem : item ∈ firstOf key items) :
    item ∈ items :=
  (firstOf_append_repeats key items).mem_iff.mp (mem_append_left _ mem)

theorem mem_firstOf_map
    (decides : ∀ a ∈ items, ∀ b ∈ items, key a = key b → value a = value b) {entry : β × γ} :
    entry ∈ (firstOf key items).map (fun item => (key item, value item)) ↔
      ∃ item ∈ items, (key item, value item) = entry := by
  rw [mem_map]
  constructor
  · rintro ⟨item, mem, rfl⟩
    exact ⟨item, mem_of_mem_firstOf mem, rfl⟩
  · rintro ⟨item, mem, rfl⟩
    have listed : key item ∈ items.map key := mem_map_of_mem mem
    obtain ⟨first, first_member, same⟩ := mem_map.mp (mem_map_firstOf.mpr listed)
    have same_value := decides first (mem_of_mem_firstOf first_member) item mem same
    exact ⟨first, first_member, by rw [same, same_value]⟩

section

variable {left right : List α} (perm : left.Perm right)
  (decides : ∀ a ∈ left, ∀ b ∈ left, key a = key b → value a = value b)

include perm decides

/-- The order of the items plays no part if the key decides the value. -/
theorem firstOf_map_perm : ((firstOf key left).map value).Perm ((firstOf key right).map value) := by
  have nodup : ∀ items : List α,
      ((firstOf key items).map fun item => (key item, value item)).Nodup := by
    intro items
    refine Nodup.of_map Prod.fst ?_
    rw [map_map]
    exact nodup_map_firstOf items
  have decides_right : ∀ a ∈ right, ∀ b ∈ right, key a = key b → value a = value b :=
    fun a a_mem b b_mem => decides a (perm.mem_iff.mpr a_mem) b (perm.mem_iff.mpr b_mem)
  have entries : ((firstOf key left).map fun item => (key item, value item)).Perm
      ((firstOf key right).map fun item => (key item, value item)) := by
    refine (perm_ext_iff_of_nodup (nodup left) (nodup right)).mpr fun entry => ?_
    rw [mem_firstOf_map decides, mem_firstOf_map decides_right]
    exact exists_congr fun item => and_congr_left fun _ => perm.mem_iff
  simpa only [map_map, Function.comp_def] using entries.map Prod.snd

theorem repeats_map_perm :
    ((repeats key left).map fun pair => value pair.1).Perm
      ((repeats key right).map fun pair => value pair.1) := by
  have whole : ∀ items : List α, ((firstOf key items).map value ++
      (repeats key items).map fun pair => value pair.1).Perm (items.map value) := by
    intro items
    simpa only [map_append, map_map, Function.comp_def] using
      (firstOf_append_repeats key items).map value
  have same := (whole left).trans ((perm.map value).trans (whole right).symm)
  exact (perm_append_left_iff _).mp
    (same.trans ((firstOf_map_perm perm decides).symm.append_right _))

end

theorem value_eq_of_repeats_swap {first second : α} {rest : List α} (same : key first = key second)
    (perm : ((repeats key (first :: second :: rest)).map fun pair => value pair.1).Perm
      ((repeats key (second :: first :: rest)).map fun pair => value pair.1)) :
    value first = value second := by
  have unfolded : ∀ {a b : α}, key a = key b → key b = key second →
      ((repeats key (a :: b :: rest)).map fun pair => value pair.1) = value b ::
        ((rest.filter fun item => key item = key second).map value ++
          ((repeats key rest).filter fun pair => key pair.1 ≠ key second).map
            fun pair => value pair.1) := by
    intro a b a_eq b_eq
    have none_left : ((rest.filter fun item => key item = key second).map
        fun item => (item, b)).filter (fun pair => key pair.1 ≠ key second) = [] := by
      rw [filter_eq_nil_iff]
      intro pair mem
      obtain ⟨item, listed, rfl⟩ := mem_map.mp mem
      simpa using (mem_filter.mp listed).2
    rw [repeats, repeats, filter_append, a_eq, b_eq, none_left]
    simp [b_eq]
  rw [unfolded same rfl, unfolded same.symm same] at perm
  exact (singleton_perm_singleton.mp ((perm_append_right_iff _).mp perm)).symm

end Accumulation
