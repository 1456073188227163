import Mathlib.Data.List.Forall2

/-!
# Loops that collect a set

A loop that only adds holds in the end what it held at first and what some iteration added, whatever
the order of the iterations.
-/

namespace Accumulation

open List

variable {α β σ : Type} {items left : List α} {item : α} {γ : Type} {related : α → β → Prop}
  {right : List β}

theorem foldl_iff (holds : σ → Prop) {step : σ → α → σ} {adds : α → Prop}
    (step_iff : ∀ state item, holds (step state item) ↔ holds state ∨ adds item) (items : List α)
    (state : σ) : holds (items.foldl step state) ↔ holds state ∨ ∃ item ∈ items, adds item := by
  induction items generalizing state with
  | nil => simp
  | cons head tail ih =>
    rw [foldl_cons, ih, step_iff, or_assoc]
    simp

theorem mem_add_absent {extended : List α} [Decidable (item ∈ items)]
    (extended_iff : ∀ other, other ∈ extended ↔ other ∈ items ∨ other = item) (other : α) :
    other ∈ (if item ∈ items then items else extended) ↔ other ∈ items ∨ other = item := by
  split
  · rename_i present
    exact ⟨Or.inl, fun either => either.elim id fun same => same ▸ present⟩
  · exact extended_iff other

theorem nil_iff_of_perm {right : List α} (perm : left.Perm right) : left = [] ↔ right = [] := by
  rw [← length_eq_zero_iff, perm.length_eq, length_eq_zero_iff]

theorem foldl_update_of_not_mem [DecidableEq β] (key : α → β) (value : α → γ) {entry : β}
    (absent : entry ∉ items.map key) (start : β → γ) :
    items.foldl (fun m item => Function.update m (key item) (value item)) start entry =
      start entry := by
  induction items generalizing start with
  | nil => rfl
  | cons head tail ih =>
    rw [map_cons, mem_cons, not_or] at absent
    rw [foldl_cons, ih absent.2, Function.update_of_ne absent.1]

theorem foldl_update_of_mem [DecidableEq β] {key : α → β} (distinct : (items.map key).Nodup)
    (value : α → γ) (start : β → γ) (mem : item ∈ items) :
    items.foldl (fun m item => Function.update m (key item) (value item)) start (key item) =
      value item := by
  induction items generalizing start with
  | nil => cases mem
  | cons head tail ih =>
    obtain ⟨apart, later⟩ := nodup_cons.mp distinct
    rw [foldl_cons]
    rcases mem_cons.mp mem with rfl | in_tail
    · rw [foldl_update_of_not_mem key value apart, Function.update_self]
    · exact ih later _ in_tail

/-- The first item for every key. -/
def firstOf [DecidableEq β] (key : α → β) : List α → List α
  | [] => []
  | item :: rest => item :: (firstOf key rest).filter fun other => key other ≠ key item

theorem firstOf_eq_nil [DecidableEq β] {key : α → β} : firstOf key items = [] ↔ items = [] := by
  cases items with
  | nil => simp [firstOf]
  | cons item rest => simp [firstOf]

theorem mem_firstOf [DecidableEq β] {key : α → β} (injective : ∀ a b, key a = key b → a = b) :
    item ∈ firstOf key items ↔ item ∈ items := by
  induction items with
  | nil => rfl
  | cons first rest ih =>
    rw [firstOf, mem_cons, mem_filter, ih, mem_cons, decide_eq_true_eq]
    refine ⟨Or.imp_right And.left, fun either => ?_⟩
    by_cases same : key item = key first
    · exact Or.inl (injective _ _ same)
    · exact either.imp_right fun later => ⟨later, same⟩

theorem nodup_firstOf [DecidableEq β] (key : α → β) (items : List α) :
    (firstOf key items).Nodup := by
  induction items with
  | nil => exact nodup_nil
  | cons first rest ih =>
    refine nodup_cons.mpr ⟨fun again => ?_, ih.filter _⟩
    simpa using (mem_filter.mp again).2

theorem nodup_eraseDups [BEq α] [LawfulBEq α] (items : List α) : items.eraseDups.Nodup := by
  match items with
  | [] => exact nodup_nil
  | first :: rest =>
    rw [eraseDups_cons, nodup_cons]
    exact ⟨by simp, nodup_eraseDups _⟩
  termination_by items.length
  decreasing_by exact Nat.lt_succ_of_le (length_filter_le _ rest)

theorem flatMap_eq_of_mem {key : α → γ} {expand : α → List β} (own : (items.map key).Nodup)
    (mem : item ∈ items) (others : ∀ other ∈ items, key other ≠ key item → expand other = []) :
    items.flatMap expand = expand item := by
  obtain ⟨before, after, rfl⟩ := append_of_mem mem
  rw [map_append, map_cons, perm_middle.nodup_iff, nodup_cons, mem_append] at own
  have nothing : ∀ part ⊆ before ++ item :: after, key item ∉ part.map key →
      part.flatMap expand = [] := by
    intro part within absent
    refine flatMap_eq_nil_iff.mpr fun other in_part => others other (within in_part) ?_
    exact fun same => absent (mem_map.mpr ⟨other, in_part, same⟩)
  rw [flatMap_append, flatMap_cons,
    nothing before (subset_append_left _ _) fun inside => own.1 (Or.inl inside),
    nothing after (fun _ inside => by simp [inside]) fun inside => own.1 (Or.inr inside),
    nil_append, append_nil]

theorem filter_flatMap_eq {keep : β → Bool} {chosen : α → Bool} {expand : α → List β}
    (same : ∀ item, ∀ part ∈ expand item, keep part = chosen item) (items : List α) :
    (items.flatMap expand).filter keep = (items.filter chosen).flatMap expand := by
  induction items with
  | nil => rfl
  | cons item rest ih =>
    rw [flatMap_cons, filter_append, ih]
    cases wanted : chosen item with
    | true =>
      rw [filter_cons_of_pos wanted, flatMap_cons, filter_eq_self.mpr]
      exact fun part mem => (same item part mem).trans wanted
    | false =>
      rw [filter_cons_of_neg (by simp [wanted]), filter_eq_nil_iff.mpr, nil_append]
      exact fun part mem => by simp [same item part mem, wanted]

/-- A list rearranged, with related elements at the new places. -/
def Shuffle (related : α → β → Prop) (left : List α) (right : List β) : Prop :=
  ∃ middle, left.Perm middle ∧ Forall₂ related middle right

theorem exists_of_forall₂ (all : Forall₂ related left right) :
    (∀ a ∈ left, ∃ b ∈ right, related a b) ∧ ∀ b ∈ right, ∃ a ∈ left, related a b := by
  induction all with
  | nil => simp
  | @cons a b left right head _ ih =>
    obtain ⟨forth, back⟩ := ih
    constructor
    · rintro x (_ | ⟨_, mem⟩)
      · exact ⟨b, mem_cons_self, head⟩
      · obtain ⟨y, y_mem, shown⟩ := forth x mem
        exact ⟨y, mem_cons_of_mem _ y_mem, shown⟩
    · rintro y (_ | ⟨_, mem⟩)
      · exact ⟨a, mem_cons_self, head⟩
      · obtain ⟨x, x_mem, shown⟩ := back y mem
        exact ⟨x, mem_cons_of_mem _ x_mem, shown⟩

theorem Shuffle.exists_iff (shuffled : Shuffle related left right) {first : α → Prop}
    {second : β → Prop} (same : ∀ a b, related a b → (first a ↔ second b)) :
    (∃ a ∈ left, first a) ↔ ∃ b ∈ right, second b := by
  obtain ⟨middle, perm, all⟩ := shuffled
  obtain ⟨forth, back⟩ := exists_of_forall₂ all
  constructor
  · rintro ⟨a, mem, holds⟩
    obtain ⟨b, b_mem, shown⟩ := forth a (perm.mem_iff.mp mem)
    exact ⟨b, b_mem, (same a b shown).mp holds⟩
  · rintro ⟨b, mem, holds⟩
    obtain ⟨a, a_mem, shown⟩ := back b mem
    exact ⟨a, perm.mem_iff.mpr a_mem, (same a b shown).mpr holds⟩

theorem Shuffle.flatMap_perm (shuffled : Shuffle related left right) {first : α → List γ}
    {second : β → List γ} (same : ∀ a b, related a b → (first a).Perm (second b)) :
    (left.flatMap first).Perm (right.flatMap second) := by
  obtain ⟨middle, perm, all⟩ := shuffled
  refine (perm.flatMap_right first).trans ?_
  clear perm
  induction all with
  | nil => exact Perm.refl _
  | cons head _ ih => exact (same _ _ head).append ih

end Accumulation
